import GreenWallet.Accounts.Creation

/-!
# The names that account creation gives

An account that is reused has the name of its type in the context, whatever it is called
in the backend and whoever else has that name. The name of an account that is created is
searched for.
-/
namespace GreenWallet.Accounts.CreateAccount
open GreenWallet.Library

variable {network : Network} {names : Key → Option String} {name : String}

namespace Creation

/-- Only updates are left, and no name changes. -/
structure Reusing (names : Key → Option String) (s : Creation) : Prop where
  names : ∀ k, s.context.nameOf k = names k
  updates : ∀ task ∈ s.tasks, task.isUpdate
  subaccount : s.subaccount = none
  pointer : s.pointer = none

/-- How far the creation of an account has come. -/
inductive Stage (network : Network) (name : String) (s : Creation) : Prop where
  | asked (updates : List Task) (details : CreateDetails)
      (hupdates : ∀ task ∈ updates, task.isUpdate)
      (htasks : s.tasks = updates ++ [.createAccount details, .loadAccounts])
      (hname : details.name = name)
  | created (pointer : ℕ) (htasks : s.tasks = [.loadAccounts])
      (hsubaccount : s.subaccount = some (pointer, name)) (hpointer : s.pointer = some pointer)
  | loaded (pointer : ℕ) (htasks : s.tasks = [])
      (hsubaccount : s.subaccount = some (pointer, name)) (hpointer : s.pointer = some pointer)
      (hloaded : s.context.nameOf (network, pointer) = some name)

/-- Only the account that is created is new, and the other names stay. -/
structure Creating (network : Network) (names : Key → Option String) (name : String)
    (s : Creation) : Prop where
  others : ∀ k, (∀ pointer, s.subaccount.map Prod.fst = some pointer → k ≠ (network, pointer)) →
    s.context.nameOf k = names k
  fresh : ∀ made, s.subaccount = some made → made.2 = name ∧ names (network, made.1) = none
  stage : s.Stage network name

end Creation

namespace Context

theorem nameOf_announced {c : Context} {other : Network} {pointer : ℕ} {k : Key}
    (h : (c.nameOf k).isSome ∨ k ≠ (other, pointer)) :
    (c.getOrCreateAccount other pointer).nameOf k = c.nameOf k := by
  rw [nameOf_getOrCreateAccount]
  split_ifs with hk
  · obtain ⟨name, hname⟩ := Option.isSome_iff_exists.mp (h.resolve_right (not_not.mpr hk))
    rw [hname]
    rfl
  · rfl

end Context

namespace Creation

theorem Reusing.next {s : Creation} {e : CreationEvent} (hs : s.Reusing names)
    (he : s.enabled network e) : (s.next network e).Reusing names := by
  have hhead : ∀ task, s.tasks.head? = some task → task.isUpdate :=
    fun task htask => hs.updates task (List.mem_of_mem_head? htask)
  have hcreate : s.tasks.head?.bind Task.createdName? = none := by
    rw [Option.bind_eq_none_iff]
    intro task htask
    cases task with
    | updateAccount details => rfl
    | createAccount details => cases hhead _ htask
    | loadAccounts => rfl
  cases e with
  | create pointer =>
      have hsome := he.1
      rw [hcreate] at hsome
      cases hsome
  | subaccountEvent other pointer =>
      have hannounced : (s.context.nameOf (other, pointer)).isSome := by
        rcases he with hsome | ⟨-, hmade⟩
        · exact hsome
        · rw [hs.subaccount] at hmade
          cases hmade
      constructor
      · intro k
        rw [← hs.names k]
        apply Context.nameOf_announced
        by_cases hk : k = (other, pointer)
        · exact .inl (hk ▸ hannounced)
        · exact .inr hk
      · exact hs.updates
      · exact hs.subaccount
      · exact hs.pointer
  | updateFinished =>
      constructor
      · exact hs.names
      · exact fun task htask => hs.updates task (List.mem_of_mem_tail htask)
      · exact hs.subaccount
      · exact hs.pointer
  | createFinished pointer =>
      have hsome := he.1
      rw [hcreate] at hsome
      cases hsome
  | loadFinished subaccounts => cases hhead _ he.1

/-- The account is created only where it is asked for. -/
theorem Stage.createdName {s : Creation} (hs : s.Stage network name)
    (h : (s.tasks.head?.bind Task.createdName?).isSome) :
    s.tasks.head?.bind Task.createdName? = some name ∧ s.tasks.tail = [.loadAccounts] := by
  cases hs with
  | asked updates details hupdates htasks hname =>
      cases updates with
      | nil =>
          rw [htasks]
          exact ⟨congrArg some hname, rfl⟩
      | cons task updates =>
          rw [htasks] at h
          cases task with
          | updateAccount details => cases h
          | createAccount details => cases hupdates _ List.mem_cons_self
          | loadAccounts => cases h
  | created pointer htasks _ _ =>
      rw [htasks] at h
      cases h
  | loaded pointer htasks _ _ _ =>
      rw [htasks] at h
      cases h

/-- What the backend lists of an account that was there before has the name it has. -/
theorem nameOf_listed {s : Creation} {subaccounts : List Subaccount}
    (he : s.enabled network (.loadFinished subaccounts)) {k : Key}
    (hk : ∀ pointer, s.subaccount.map Prod.fst = some pointer → k ≠ (network, pointer)) :
    (s.context.loadAccounts network subaccounts).nameOf k = s.context.nameOf k := by
  have hlisted : ∀ json ∈ subaccounts, (network, json.pointer) = k →
      s.context.nameOf k = some json.name := by
    intro json hjson hkey
    have hname := he.2.2 json hjson
    rw [backendName, if_neg fun hmade => hk json.pointer hmade hkey.symm, hkey] at hname
    exact hname
  rw [Context.nameOf_loadAccounts _ _ ((s.context.nameOf k).getD "")]
  · split_ifs with hex
    · obtain ⟨json, hjson, hkey⟩ := hex
      rw [hlisted json hjson hkey]
      rfl
    · rfl
  · intro json hjson hkey
    rw [hlisted json hjson hkey]
    rfl

/-- The account that was created is listed with its name. -/
theorem nameOf_created {s : Creation} {subaccounts : List Subaccount}
    (he : s.enabled network (.loadFinished subaccounts)) {pointer : ℕ}
    (hmade : s.subaccount = some (pointer, name)) :
    (s.context.loadAccounts network subaccounts).nameOf (network, pointer) = some name := by
  have hfst : s.subaccount.map Prod.fst = some pointer := by rw [hmade]; rfl
  rw [Context.nameOf_loadAccounts _ _ name]
  · apply if_pos
    obtain ⟨json, hjson, hpointer⟩ := he.2.1 pointer hfst
    exact ⟨json, hjson, by rw [hpointer]⟩
  · intro json hjson hkey
    have hname := he.2.2 json hjson
    have hpointer : json.pointer = pointer := congrArg Prod.snd hkey
    rw [backendName, hpointer, if_pos hfst, hmade, Option.map_some, Option.some.injEq] at hname
    exact hname.symm

section
variable {s : Creation}

/-- The account that the backend makes is new. -/
theorem Creating.next_create (hs : s.Creating network names name) {pointer : ℕ}
    (he : s.enabled network (.create pointer)) :
    (s.next network (.create pointer)).Creating network names name := by
  obtain ⟨hsome, hnone, hfresh⟩ := he
  obtain ⟨hname, htail⟩ := hs.stage.createdName hsome
  have hothers : ∀ k, s.context.nameOf k = names k := by
    intro k
    apply hs.others
    simp [hnone]
  constructor
  · intro k _
    exact hothers k
  · intro made hmade
    simp only [Creation.next, hname, Option.map_some, Option.some.injEq] at hmade
    subst hmade
    exact ⟨rfl, (hothers _).symm.trans hfresh⟩
  · cases hs.stage with
    | asked updates details hupdates htasks hdetails =>
        exact .asked updates details hupdates htasks hdetails
    | created pointer _ hmade _ =>
        rw [hnone] at hmade
        cases hmade
    | loaded pointer _ hmade _ _ =>
        rw [hnone] at hmade
        cases hmade

/-- What is announced has a name already, or is the account that was made. -/
theorem Creating.next_subaccountEvent (hs : s.Creating network names name) {other : Network}
    {pointer : ℕ} (he : s.enabled network (.subaccountEvent other pointer)) :
    (s.next network (.subaccountEvent other pointer)).Creating network names name := by
  have hsame : ∀ k, (∀ p, s.subaccount.map Prod.fst = some p → k ≠ (network, p)) →
      (s.context.getOrCreateAccount other pointer).nameOf k = s.context.nameOf k := by
    intro k hk
    apply Context.nameOf_announced
    by_cases hkey : k = (other, pointer)
    · rcases he with hsome | ⟨hother, hmade⟩
      · exact .inl (hkey ▸ hsome)
      · exact (hk pointer hmade (hkey.trans (by rw [hother]))).elim
    · exact .inr hkey
  constructor
  · intro k hk
    exact (hsame k hk).trans (hs.others k hk)
  · exact hs.fresh
  · cases hs.stage with
    | asked updates details hupdates htasks hdetails =>
        exact .asked updates details hupdates htasks hdetails
    | created p htasks hmade hpointer => exact .created p htasks hmade hpointer
    | loaded p htasks hmade hpointer hloaded =>
        have hsome : (s.context.nameOf (network, p)).isSome := by rw [hloaded]; rfl
        exact .loaded p htasks hmade hpointer
          ((Context.nameOf_announced (.inl hsome)).trans hloaded)

theorem Creating.next_updateFinished (hs : s.Creating network names name)
    (he : s.enabled network .updateFinished) :
    (s.next network .updateFinished).Creating network names name := by
  constructor
  · exact hs.others
  · exact hs.fresh
  · cases hs.stage with
    | asked updates details hupdates htasks hdetails =>
        have hhead : s.tasks.head?.any Task.isUpdate := he
        rw [htasks] at hhead
        cases updates with
        | nil => cases hhead
        | cons task updates =>
            apply Stage.asked updates details _ _ hdetails
            · exact fun task htask => hupdates task (List.mem_cons_of_mem _ htask)
            · exact congrArg List.tail htasks
    | created p htasks _ _ =>
        have hhead : s.tasks.head?.any Task.isUpdate := he
        rw [htasks] at hhead
        cases hhead
    | loaded p htasks _ _ _ =>
        have hhead : s.tasks.head?.any Task.isUpdate := he
        rw [htasks] at hhead
        cases hhead

theorem Creating.next_createFinished (hs : s.Creating network names name) {pointer : ℕ}
    (he : s.enabled network (.createFinished pointer)) :
    (s.next network (.createFinished pointer)).Creating network names name := by
  obtain ⟨hsome, hmade⟩ := he
  obtain ⟨-, htail⟩ := hs.stage.createdName hsome
  obtain ⟨⟨p, made⟩, hpair, hp⟩ := Option.map_eq_some_iff.mp hmade
  have hname : made = name := (hs.fresh _ hpair).1
  constructor
  · exact hs.others
  · exact hs.fresh
  · apply Stage.created pointer htail _ rfl
    rw [← hp, ← hname]
    exact hpair

/-- The accounts that are loaded give the new one its name. -/
theorem Creating.next_loadFinished (hs : s.Creating network names name) {subaccounts : List Subaccount}
    (he : s.enabled network (.loadFinished subaccounts)) :
    (s.next network (.loadFinished subaccounts)).Creating network names name := by
  have hhead : s.tasks.head? = some .loadAccounts := he.1
  constructor
  · intro k hk
    exact (nameOf_listed he hk).trans (hs.others k hk)
  · exact hs.fresh
  · cases hs.stage with
    | asked updates details hupdates htasks hdetails =>
        rw [htasks] at hhead
        cases updates with
        | nil => cases hhead
        | cons task updates =>
            obtain rfl := Option.some.inj hhead
            cases hupdates _ List.mem_cons_self
    | created p htasks hmade hpointer =>
        exact .loaded p (congrArg List.tail htasks) hmade hpointer (nameOf_created he hmade)
    | loaded p htasks _ _ _ =>
        rw [htasks] at hhead
        cases hhead

theorem Creating.next {e : CreationEvent} (hs : s.Creating network names name)
    (he : s.enabled network e) : (s.next network e).Creating network names name := by
  cases e with
  | create pointer => exact hs.next_create he
  | subaccountEvent other pointer => exact hs.next_subaccountEvent he
  | updateFinished => exact hs.next_updateFinished he
  | createFinished pointer => exact hs.next_createFinished he
  | loadFinished subaccounts => exact hs.next_loadFinished he

end

/-- The account that is reused or created has the name that the backend was sent for it, and
no other account has that name. -/
structure Consistent (network : Network) (started final : Creation) : Prop where
  reused : ∀ details, .updateAccount details ∈ started.tasks → ∀ name, details.name = some name →
    final.context.nameOf (network, details.subaccount) = some name
  created : ∀ details, .createAccount details ∈ started.tasks → ∃ pointer,
    final.pointer = some pointer ∧ final.context.nameOf (network, pointer) = some details.name
  unique : ∀ pointer, (∃ details, .updateAccount details ∈ started.tasks ∧ details.name.isSome ∧
      details.subaccount = pointer) ∨ final.pointer = some pointer →
    ∀ name, final.context.nameOf (network, pointer) = some name →
      ∀ k, k ≠ (network, pointer) → final.context.nameOf k ≠ some name

end Creation

namespace CreateAccountController
variable (c : CreateAccountController)

theorem numbered_injOn : Set.InjOn c.numbered (Set.Ici 1) := by
  intro i hi j hj hij
  rw [Set.mem_Ici] at hi hj
  have hsuffix := (String.append_right_inj c.name).mp hij
  have hlong : ∀ n : ℕ, " " ++ toString n ≠ "" := by
    intro n hn
    simpa using congrArg String.toList hn
  by_cases hi1 : 1 < i
  · by_cases hj1 : 1 < j
    · rw [if_pos hi1, if_pos hj1, String.append_right_inj] at hsuffix
      exact toString_toList_injective (congrArg String.toList hsuffix)
    · rw [if_pos hi1, if_neg hj1] at hsuffix
      exact (hlong i hsuffix).elim
  · by_cases hj1 : 1 < j
    · rw [if_neg hi1, if_pos hj1] at hsuffix
      exact (hlong j hsuffix.symm).elim
    · omega

theorem network_of_reuses {a : Account} (h : c.reuses a) : a.network = c.m_network := by
  by_contra hne
  have hvisit : c.visit a = .skip := if_pos hne
  simp [reuses, hvisit] at h

theorem exists_ensureAccount (context : Context) : ∃ name,
    name ∉ context.accounts.map Account.name ∧ ∀ rounds > context.accounts.length,
      c.ensureAccount context rounds = some (c.begin context name) := by
  obtain ⟨k, -, hfree, -, hfound⟩ :=
    exists_firstFree c.numbered_injOn (context.accounts.map Account.name)
  refine ⟨c.numbered k, hfree, fun rounds hrounds => ?_⟩
  rw [ensureAccount, hfound rounds (by rwa [List.length_map]), Option.map_some]

variable {c} {context : Context}

theorem nameOf_begin (name : String) (k : Key) :
    (c.begin context name).context.nameOf k =
      if (context.accounts.find? c.reuses).map Account.key = some k then some c.name
      else context.nameOf k :=
  c.accountName_scan context.nodup k

theorem begin_reusing {name : String}
    (h : ((context.accounts.find? c.reuses).map Account.key).isSome ∨ c.m_account.isSome) :
    (c.begin context name).Reusing (c.begin context name).context.nameOf := by
  have hsome : ((c.scan context.accounts).m_account.or c.m_account).isSome := by
    rw [scan_m_account, Option.isSome_or, Bool.or_eq_true]
    exact h
  constructor
  · exact fun k => rfl
  · intro task htask
    rw [begin, if_pos hsome, List.append_nil] at htask
    exact c.isUpdate_of_mem_scan htask
  · rfl
  · rfl

theorem begin_creating {name : String} (hreused : context.accounts.find? c.reuses = none)
    (haccount : c.m_account = none) :
    (c.begin context name).Creating c.m_network (c.begin context name).context.nameOf name := by
  have hnone : ((c.scan context.accounts).m_account.or c.m_account) = none := by
    rw [scan_m_account, hreused, haccount]
    rfl
  constructor
  · exact fun k _ => rfl
  · intro made hmade
    cases hmade
  · apply Creation.Stage.asked (c.scan context.accounts).tasks (c.details name)
    · exact fun task htask => c.isUpdate_of_mem_scan htask
    · rw [begin, hnone]
      rfl
    · rfl

theorem updateAccount_mem_begin {name : String} {details : UpdateDetails} :
    .updateAccount details ∈ (c.begin context name).tasks ↔
      .updateAccount details ∈ (c.scan context.accounts).tasks := by
  rw [begin, List.mem_append]
  split_ifs <;> simp

/-- Without an account to reuse, no name is sent with an update. -/
theorem not_named {name : String} {details : UpdateDetails}
    (hreused : context.accounts.find? c.reuses = none)
    (hmem : .updateAccount details ∈ (c.begin context name).tasks) : ¬ details.name.isSome := by
  intro hsome
  obtain ⟨a, ha, -⟩ := (c.named_mem_scan context.accounts details).mp
    ⟨updateAccount_mem_begin.mp hmem, hsome⟩
  rw [hreused] at ha
  cases ha

/-- Nobody's name is the one that was searched for. -/
theorem nameOf_ne_of_not_mem {name : String} (h : name ∉ context.accounts.map Account.name)
    (k : Key) : context.nameOf k ≠ some name := by
  intro hname
  obtain ⟨a, ha, -, rfl⟩ := (accountName_eq_some context.nodup).mp hname
  exact h (List.mem_map_of_mem ha)

theorem consistent_of_created {name : String} {final : Creation}
    (hreused : context.accounts.find? c.reuses = none)
    (hname : name ∉ context.accounts.map Account.name) (hdone : final.tasks = [])
    (hfinal : final.Creating c.m_network (c.begin context name).context.nameOf name)
    (htasks : (c.begin context name).tasks =
      (c.scan context.accounts).tasks ++ [.createAccount (c.details name), .loadAccounts]) :
    Creation.Consistent c.m_network (c.begin context name) final := by
  cases hfinal.stage with
  | asked updates details _ hpending _ =>
      rw [hdone] at hpending
      simp at hpending
  | created pointer hpending _ _ =>
      rw [hdone] at hpending
      cases hpending
  | loaded p _ hmade hpointer hloaded =>
      constructor
      · intro details hmem sent hsent
        exact (not_named hreused hmem (by rw [hsent]; rfl)).elim
      · intro details hmem
        rw [htasks, List.mem_append] at hmem
        have hdetails : details = c.details name := by
          rcases hmem with hscan | hcreate
          · cases c.isUpdate_of_mem_scan hscan
          · simpa using hcreate
        rw [hdetails]
        exact ⟨p, hpointer, hloaded⟩
      · intro pointer hgiven sent hsent k hk
        have hp : pointer = p := by
          rcases hgiven with ⟨details, hmem, hsome, -⟩ | hreceived
          · exact (not_named hreused hmem hsome).elim
          · exact Option.some.inj (hreceived.symm.trans hpointer)
        subst hp
        have hother : final.context.nameOf k = context.nameOf k := by
          rw [hfinal.others k, nameOf_begin, hreused]
          · rfl
          · intro q hq
            rw [hmade] at hq
            obtain rfl : pointer = q := Option.some.inj hq
            exact hk
        rw [hother, ← hsent, hloaded]
        exact nameOf_ne_of_not_mem hname k

theorem sentName_eq_name {a : Account} : c.sentName a = c.name ↔ a.name = "" ∨ a.name = c.name := by
  rw [sentName]
  split_ifs with h
  · simp [h]
  · simp [h]

theorem consistent_iff_of_reused {a : Account} {name : String} {final : Creation}
    (hreused : context.accounts.find? c.reuses = some a)
    (hfinal : final.Reusing (c.begin context name).context.nameOf)
    (htasks : ∀ task ∈ (c.begin context name).tasks, task.isUpdate) :
    Creation.Consistent c.m_network (c.begin context name) final ↔
      (a.name = "" ∨ a.name = c.name) ∧
        ∀ b ∈ context.accounts, b.key ≠ a.key → b.name ≠ c.name := by
  have hkey : a.key = (c.m_network, a.pointer) :=
    congrArg (·, a.pointer) (c.network_of_reuses (List.find?_some hreused))
  have hself : final.context.nameOf (c.m_network, a.pointer) = some c.name := by
    rw [hfinal.names, nameOf_begin, hreused, ← hkey]
    exact if_pos rfl
  have hothers : ∀ k, k ≠ (c.m_network, a.pointer) → final.context.nameOf k = context.nameOf k := by
    intro k hk
    rw [hfinal.names, nameOf_begin, hreused, Option.map_some, hkey]
    exact if_neg fun h => hk (Option.some.inj h).symm
  have hnamed : ∀ details, .updateAccount details ∈ (c.begin context name).tasks ∧
      details.name.isSome ↔
        details = { subaccount := a.pointer, name := some (c.sentName a), hidden := false } := by
    intro details
    rw [updateAccount_mem_begin, named_mem_scan, hreused]
    simp
  rw [← sentName_eq_name]
  constructor
  · intro h
    obtain ⟨hmem, hsome⟩ := (hnamed _).mpr rfl
    constructor
    · have hsent := h.reused _ hmem _ rfl
      exact Option.some.inj (hsent.symm.trans hself)
    · intro b hb hne hname
      rw [hkey] at hne
      apply h.unique a.pointer (.inl ⟨_, hmem, hsome, rfl⟩) c.name hself b.key hne
      rw [hothers b.key hne]
      exact (accountName_eq_some context.nodup).mpr ⟨b, hb, rfl, hname⟩
  · rintro ⟨hsent, hunique⟩
    constructor
    · intro details hmem sent hname
      have hdetails := (hnamed details).mp ⟨hmem, by rw [hname]; rfl⟩
      subst hdetails
      rw [← Option.some.inj hname, hself, hsent]
    · intro details hmem
      cases htasks _ hmem
    · intro pointer hgiven given hgivenName k hk
      have hpointer : a.pointer = pointer := by
        rcases hgiven with ⟨details, hmem, hsome, hsub⟩ | hreceived
        · rw [(hnamed details).mp ⟨hmem, hsome⟩] at hsub
          exact hsub
        · rw [hfinal.pointer] at hreceived
          cases hreceived
      subst hpointer
      rw [hself] at hgivenName
      rw [hothers k hk, ← hgivenName]
      intro hname
      obtain ⟨b, hb, hbkey, hbname⟩ := (accountName_eq_some context.nodup).mp hname
      exact hunique b hb (by rw [hbkey, hkey]; exact hk) hbname

/-- Where an account was chosen before, and none is reused now, none gets a name. -/
theorem consistent_of_chosen {name : String} {final : Creation}
    (hreused : context.accounts.find? c.reuses = none)
    (hfinal : final.Reusing (c.begin context name).context.nameOf)
    (htasks : ∀ task ∈ (c.begin context name).tasks, task.isUpdate) :
    Creation.Consistent c.m_network (c.begin context name) final := by
  constructor
  · intro details hmem sent hsent
    exact (not_named hreused hmem (by rw [hsent]; rfl)).elim
  · intro details hmem
    cases htasks _ hmem
  · intro pointer hgiven
    rcases hgiven with ⟨details, hmem, hsome, -⟩ | hreceived
    · exact (not_named hreused hmem hsome).elim
    · rw [hfinal.pointer] at hreceived
      cases hreceived

variable (c)

/-- Exactly when the account that is reused, if any, has no name or the name of its type,
and no other account has that name, the names are consistent in the end. -/
theorem consistent_iff (context : Context) {rounds : ℕ}
    (hrounds : context.accounts.length < rounds) : ∃ started,
    c.ensureAccount context rounds = some started ∧
    ∀ es, (creation c.m_network).Valid started es →
      ((creation c.m_network).run started es).tasks = [] →
        (Creation.Consistent c.m_network started ((creation c.m_network).run started es) ↔
          ∀ a, context.accounts.find? c.reuses = some a → (a.name = "" ∨ a.name = c.name) ∧
            ∀ b ∈ context.accounts, b.key ≠ a.key → b.name ≠ c.name) := by
  obtain ⟨name, hname, hstarted⟩ := c.exists_ensureAccount context
  refine ⟨c.begin context name, hstarted rounds hrounds, fun es hvalid hdone => ?_⟩
  have hreusing : ∀ h : (c.begin context name).Reusing (c.begin context name).context.nameOf,
      ((creation c.m_network).run (c.begin context name) es).Reusing
        (c.begin context name).context.nameOf :=
    fun h => Reactive.run_invariant (fun _ _ => Creation.Reusing.next) h hvalid
  cases hreused : context.accounts.find? c.reuses with
  | some a =>
      have hbegin : (c.begin context name).Reusing (c.begin context name).context.nameOf :=
        begin_reusing (.inl (by rw [hreused]; rfl))
      rw [consistent_iff_of_reused hreused (hreusing hbegin) hbegin.updates]
      simp
  | none =>
      have htrue : Creation.Consistent c.m_network (c.begin context name)
          ((creation c.m_network).run (c.begin context name) es) := by
        cases hchosen : c.m_account with
        | some k =>
            have hbegin : (c.begin context name).Reusing (c.begin context name).context.nameOf :=
              begin_reusing (.inr (by rw [hchosen]; rfl))
            exact consistent_of_chosen hreused (hreusing hbegin) hbegin.updates
        | none =>
            have hbegin : (c.begin context name).Creating c.m_network
                (c.begin context name).context.nameOf name := begin_creating hreused hchosen
            have hfinal := Reactive.run_invariant (R := creation c.m_network)
              (fun _ _ => Creation.Creating.next) hbegin hvalid
            apply consistent_of_created hreused hname hdone hfinal
            rw [begin, scan_m_account, hreused, hchosen]
            rfl
      simp [htrue]

end CreateAccountController

section Run

/-- A network whose accounts have one signature. -/
def singlesig : Network where
  id := "electrum-mainnet"
  liquid := false
  electrum := true

def segwit (name : String) (hidden : Bool) : Account where
  network := singlesig
  pointer := 0
  type := "p2wpkh"
  name := name
  hidden := hidden

/-- A context with one account. -/
def single (a : Account) : Context where
  accounts := [a]
  nodup := List.nodup_singleton a.key

def createSegwit : CreateAccountController where
  m_network := singlesig
  m_type := "p2wpkh"

/-- A second account of the type gets a number. -/
theorem consistent_second : ∃ started,
    createSegwit.ensureAccount (single (segwit "Standard" false)) 2 = some started ∧
      Creation.Consistent singlesig started ((creation singlesig).run started
        [.create 1, .subaccountEvent singlesig 1, .createFinished 1, .loadFinished
          [⟨0, "p2wpkh", "Standard", false, true, none⟩,
            ⟨1, "p2wpkh", "Standard 2", false, false, none⟩]]) := by
  have hrounds : (single (segwit "Standard" false)).accounts.length < 2 := by decide
  obtain ⟨started, hstarted, h⟩ :=
    createSegwit.consistent_iff (single (segwit "Standard" false)) hrounds
  have hbegin : createSegwit.ensureAccount (single (segwit "Standard" false)) 2 =
      some (createSegwit.begin (single (segwit "Standard" false)) "Standard 2") := rfl
  have hsame := Option.some.inj (hstarted.symm.trans hbegin)
  subst hsame
  exact ⟨_, hstarted, (h _ (by decide +kernel) (by decide +kernel)).mpr (by decide +kernel)⟩

/-- A hidden account with a name of its own: the backend keeps it, the context does not. -/
theorem not_consistent_savings : ¬ ∀ (c : CreateAccountController) (context : Context)
    (rounds : ℕ) (started : Creation) (es : List CreationEvent),
    c.ensureAccount context rounds = some started → (creation c.m_network).Valid started es →
      ((creation c.m_network).run started es).tasks = [] →
        Creation.Consistent c.m_network started ((creation c.m_network).run started es) := by
  intro h
  have hrun := h createSegwit (single (segwit "Savings" true)) 1
    (createSegwit.begin (single (segwit "Savings" true)) "Standard") [.updateFinished] rfl
    (by decide +kernel) (by decide +kernel)
  have hsent := hrun.reused
    { subaccount := 0, name := some "Savings", hidden := false } (by decide +kernel) "Savings" rfl
  revert hsent
  decide +kernel

end Run

end GreenWallet.Accounts.CreateAccount
