import Mathlib.Data.List.Nodup
import Mathlib.Order.Lattice

/-!
# Members in the order of their keys

An object is a list of members whose keys increase. Putting a member in replaces the one with
its key, or goes between those with smaller and greater keys. A merge puts in the members of a
patch one after the other, each with a value that depends on what is there under its key.
-/
namespace GreenWallet.Library.Members
variable {κ α β : Type*} [LinearOrder κ]

/-- The keys increase. -/
def Ordered (members : List (κ × α)) : Prop := members.Pairwise fun a b => a.1 < b.1

def put (key : κ) (value : α) : List (κ × α) → List (κ × α)
  | [] => [(key, value)]
  | member :: rest =>
      if member.1 < key then member :: put key value rest
      else if member.1 = key then (key, value) :: rest
      else (key, value) :: member :: rest

variable {key other : κ} {value : α} {members : List (κ × α)}

theorem Ordered.nodup (h : Ordered members) : (members.map Prod.fst).Nodup := by
  apply List.Pairwise.map _ _ h
  intro a b hlt
  exact hlt.ne

/-! ### One member -/

theorem lookup_put_self (key : κ) (value : α) (members : List (κ × α)) :
    (put key value members).lookup key = some value := by
  induction members with
  | nil => exact List.lookup_cons_self
  | cons member rest ih =>
      unfold put
      split_ifs with hlt heq
      · rw [List.lookup_cons, beq_false_of_ne hlt.ne', ih]
      · exact List.lookup_cons_self
      · exact List.lookup_cons_self

theorem lookup_put_of_ne (value : α) (members : List (κ × α)) (h : other ≠ key) :
    (put key value members).lookup other = members.lookup other := by
  induction members with
  | nil => rw [put, List.lookup_cons, beq_false_of_ne h]
  | cons member rest ih =>
      unfold put
      split_ifs with hlt heq
      · rw [List.lookup_cons, List.lookup_cons, ih]
      · rw [List.lookup_cons, List.lookup_cons, heq, beq_false_of_ne h]
      · rw [List.lookup_cons, beq_false_of_ne h]

/-- Putting in what is there already changes nothing. -/
theorem put_of_lookup (hmembers : Ordered members) (h : members.lookup key = some value) :
    put key value members = members := by
  induction members with
  | nil => cases h
  | cons member rest ih =>
      obtain ⟨hfirst, hrest⟩ := List.pairwise_cons.mp hmembers
      rw [List.lookup_cons] at h
      by_cases heq : key = member.1
      · rw [heq, beq_self_eq_true] at h
        have hvalue : member.2 = value := Option.some.inj h
        rw [put, if_neg (by simp [heq]), if_pos heq.symm, heq, ← hvalue]
      · rw [beq_false_of_ne heq] at h
        -- found further on, so its key is greater
        have hlt : member.1 < key := by
          obtain ⟨before, after, hsplit, -⟩ := List.lookup_eq_some_iff.mp h
          exact hfirst (key, value) (hsplit ▸ List.mem_append_right _ List.mem_cons_self)
        rw [put, if_pos hlt, ih hrest h]

theorem mem_put {member : κ × α} (h : member ∈ put key value members) :
    member = (key, value) ∨ member ∈ members := by
  induction members with
  | nil => exact .inl (List.mem_singleton.mp h)
  | cons first rest ih =>
      unfold put at h
      split_ifs at h with hlt heq
      · cases List.mem_cons.mp h with
        | inl hfirst => exact .inr (List.mem_cons.mpr (.inl hfirst))
        | inr hrest =>
            cases ih hrest with
            | inl hnew => exact .inl hnew
            | inr hold => exact .inr (List.mem_cons_of_mem _ hold)
      · cases List.mem_cons.mp h with
        | inl hnew => exact .inl hnew
        | inr hrest => exact .inr (List.mem_cons_of_mem _ hrest)
      · exact List.mem_cons.mp h

theorem Ordered.put (hmembers : Ordered members) (key : κ) (value : α) :
    Ordered (put key value members) := by
  induction members with
  | nil => exact List.pairwise_singleton _ _
  | cons first rest ih =>
      obtain ⟨hfirst, hrest⟩ := List.pairwise_cons.mp hmembers
      unfold Members.put
      split_ifs with hlt heq
      · apply List.pairwise_cons.mpr
        constructor
        · intro member hmember
          cases mem_put hmember with
          | inl hnew => rwa [hnew]
          | inr hold => exact hfirst member hold
        · exact ih hrest
      · apply List.pairwise_cons.mpr
        constructor
        · intro member hmember
          rw [← heq]
          exact hfirst member hmember
        · exact hrest
      · have hgt : key < first.1 := lt_of_le_of_ne (not_lt.mp hlt) (Ne.symm heq)
        apply List.pairwise_cons.mpr
        constructor
        · intro member hmember
          cases List.mem_cons.mp hmember with
          | inl hsame => rwa [hsame]
          | inr hmem => exact hgt.trans (hfirst member hmem)
        · exact hmembers

/-! ### A patch -/

/-- `merged` says what becomes of what is there under a key, or of nothing, for a value of the
patch. -/
def merge (merged : Option α → β → α) (members : List (κ × α)) (patch : List (κ × β)) :
    List (κ × α) :=
  patch.foldl (fun members entry => put entry.1 (merged (members.lookup entry.1) entry.2) members)
    members

variable {merged : Option α → β → α} {patch : List (κ × β)} {entry : κ × β}

@[simp] theorem merge_cons : merge merged members (entry :: patch) =
    merge merged (put entry.1 (merged (members.lookup entry.1) entry.2) members) patch := rfl

theorem lookup_merge_of_notMem (h : key ∉ patch.map Prod.fst) :
    (merge merged members patch).lookup key = members.lookup key := by
  induction patch generalizing members with
  | nil => rfl
  | cons entry patch ih =>
      rw [List.map_cons, List.mem_cons, not_or] at h
      rw [merge_cons, ih h.2, lookup_put_of_ne _ _ h.1]

/-- Under a key of the patch there is what was there, merged with the value of the patch. -/
theorem lookup_merge (hpatch : (patch.map Prod.fst).Nodup) (h : entry ∈ patch) :
    (merge merged members patch).lookup entry.1 =
      some (merged (members.lookup entry.1) entry.2) := by
  induction patch generalizing members with
  | nil => cases h
  | cons first patch ih =>
      rw [List.map_cons, List.nodup_cons] at hpatch
      rw [merge_cons]
      cases List.mem_cons.mp h with
      | inl hfirst =>
          subst hfirst
          rw [lookup_merge_of_notMem hpatch.1, lookup_put_self]
      | inr hrest =>
          have hne : entry.1 ≠ first.1 := by
            intro heq
            exact hpatch.1 (heq ▸ List.mem_map_of_mem hrest)
          rw [ih hpatch.2 hrest, lookup_put_of_ne _ _ hne]

theorem merge_of_forall (hmembers : Ordered members)
    (h : ∀ entry ∈ patch, members.lookup entry.1 =
      some (merged (members.lookup entry.1) entry.2)) :
    merge merged members patch = members := by
  induction patch with
  | nil => rfl
  | cons entry patch ih =>
      rw [merge_cons, put_of_lookup hmembers (h entry List.mem_cons_self)]
      exact ih fun other hother => h other (List.mem_cons_of_mem _ hother)

/-- A merge changes nothing exactly when every member of the patch finds there what it would
put there. -/
theorem merge_eq_self_iff (hmembers : Ordered members) (hpatch : (patch.map Prod.fst).Nodup) :
    merge merged members patch = members ↔
      ∀ entry ∈ patch, some (merged (members.lookup entry.1) entry.2) =
        members.lookup entry.1 := by
  constructor
  · intro h entry hentry
    rw [← lookup_merge hpatch hentry, h]
  · intro h
    exact merge_of_forall hmembers fun entry hentry => (h entry hentry).symm

theorem Ordered.merge (hmembers : Ordered members) (merged : Option α → β → α)
    (patch : List (κ × β)) : Ordered (merge merged members patch) := by
  induction patch generalizing members with
  | nil => exact hmembers
  | cons entry patch ih => exact ih (hmembers.put _ _)

theorem forall_lookup {P : α → Prop} (hmembers : ∀ member ∈ members, P member.2) :
    ∀ value ∈ members.lookup key, P value := by
  intro value hvalue
  obtain ⟨before, after, hsplit, -⟩ := List.lookup_eq_some_iff.mp hvalue
  exact hmembers (key, value) (hsplit ▸ List.mem_append_right _ List.mem_cons_self)

/-- What holds of the values that are there and is kept as they are merged holds afterwards. -/
theorem forall_merge {P : α → Prop} (hmembers : ∀ member ∈ members, P member.2)
    (hmerged : ∀ entry ∈ patch, ∀ old : Option α, (∀ value ∈ old, P value) →
      P (merged old entry.2)) :
    ∀ member ∈ merge merged members patch, P member.2 := by
  induction patch generalizing members with
  | nil => exact hmembers
  | cons entry patch ih =>
      apply ih
      · intro member hmember
        cases mem_put hmember with
        | inl hnew =>
            rw [hnew]
            exact hmerged entry List.mem_cons_self _ (forall_lookup hmembers)
        | inr hold => exact hmembers member hold
      · intro other hother
        exact hmerged other (List.mem_cons_of_mem _ hother)

end GreenWallet.Library.Members
