import GreenWallet.Jade.Discovery

/-!
# One device for each Jade

A device is known by its `EFUSEMAC` and by its backend. The agent looks devices up by either,
so there had better be one of each. That depends on what comes back from the backends: behind
a backend that a device has, there must not turn up another one.
-/
namespace GreenWallet.Jade.Discovery
open GreenWallet.Library

/-- What a device is looked up by. -/
structure Ident where
  api : Option ℕ
  efusemac : String

def JadeDevice.ident (device : JadeDevice) : Ident := ⟨device.api, device.versionInfo.efusemac⟩

theorem Reply.error_ne_result (message : String) (info : VersionInfo) :
    Reply.error message ≠ .result info := by
  intro h
  cases h

theorem Reply.nothing_ne_result (info : VersionInfo) : Reply.nothing ≠ .result info := by
  intro h
  cases h

namespace Agent

def idents (s : Agent) : List Ident := s.devices.map JadeDevice.ident

def backends (s : Agent) : List ℕ := s.m_backends.map Prod.snd

/-- Devices differ in both, and the backends of devices have not been removed. -/
structure Identified (s : Agent) : Prop where
  efusemac : ∀ (i j : ℕ) (x y : Ident), s.idents[i]? = some x → s.idents[j]? = some y →
    x.efusemac = y.efusemac → i = j
  api : ∀ (i j : ℕ) (x y : Ident) (backend : ℕ), s.idents[i]? = some x → s.idents[j]? = some y →
    x.api = some backend → y.api = some backend → i = j
  present : ∀ (i : ℕ) (x : Ident) (backend : ℕ), s.idents[i]? = some x →
    x.api = some backend → backend ∈ s.backends

/-- What is to come is to come for backends that have not been removed. -/
structure Present (s : Agent) : Prop where
  pending : ∀ pending ∈ s.pending, pending.backend ∈ s.backends
  lt_made : ∀ backend ∈ s.backends, backend < s.made

/-- A device stays the one that it is. -/
def Stays (s t : Agent) : Prop :=
  ∀ (i : ℕ) (x : Ident), s.idents[i]? = some x → ∃ y, t.idents[i]? = some y ∧ y.efusemac = x.efusemac

/-- The backend of a device answers with a version info that is not of the device. -/
def Swaps (s : Agent) : Event → Prop
  | .probed backend (.result info) | .versioned backend (.result info) =>
      ∃ x ∈ s.idents, x.api = some backend ∧ x.efusemac ≠ info.efusemac
  | _ => False

instance (s : Agent) (e : Event) : Decidable (Swaps s e) :=
  match e with
  | .probed backend (.result info) | .versioned backend (.result info) =>
      inferInstanceAs
        (Decidable (∃ x ∈ s.idents, x.api = some backend ∧ x.efusemac ≠ info.efusemac))
  | .probed _ (.error _) | .probed _ .nothing | .versioned _ (.error _) | .versioned _ .nothing
  | .scan | .scanned _ | .disconnected _ | .setLocked _ _ | .connected _ _ | .retry _ _
  | .update _ _ | .pinged _ _ _ => isFalse id

/-! ### What devices are looked up by -/

theorem getElem?_idents (s : Agent) (i : ℕ) : s.idents[i]? = s.devices[i]?.map JadeDevice.ident :=
  List.getElem?_map

theorem deviceFromBackend_eq_some {s : Agent} {backend i : ℕ}
    (h : s.deviceFromBackend backend = some i) :
    ∃ x, s.idents[i]? = some x ∧ x.api = some backend := by
  obtain ⟨hi, hfound, -⟩ := List.findIdx?_eq_some_iff_getElem.mp h
  refine ⟨s.devices[i].ident, ?_, of_decide_eq_true hfound⟩
  rw [getElem?_idents, List.getElem?_eq_getElem hi]
  rfl

theorem deviceFromBackend_eq_none {s : Agent} {backend : ℕ}
    (h : s.deviceFromBackend backend = none) (i : ℕ) (x : Ident) (hx : s.idents[i]? = some x) :
    x.api ≠ some backend := by
  rw [getElem?_idents] at hx
  obtain ⟨d, hd, rfl⟩ := Option.map_eq_some_iff.mp hx
  exact of_decide_eq_false (List.findIdx?_eq_none_iff.mp h d (List.mem_of_getElem? hd))

theorem deviceFromEfusemac_eq_some {s : Agent} {efusemac : String} {i : ℕ}
    (h : s.deviceFromEfusemac efusemac = some i) :
    ∃ x, s.idents[i]? = some x ∧ x.efusemac = efusemac := by
  obtain ⟨hi, hfound, -⟩ := List.findIdx?_eq_some_iff_getElem.mp h
  refine ⟨s.devices[i].ident, ?_, of_decide_eq_true hfound⟩
  rw [getElem?_idents, List.getElem?_eq_getElem hi]
  rfl

theorem deviceFromEfusemac_eq_none {s : Agent} {efusemac : String}
    (h : s.deviceFromEfusemac efusemac = none) (i : ℕ) (x : Ident) (hx : s.idents[i]? = some x) :
    x.efusemac ≠ efusemac := by
  rw [getElem?_idents] at hx
  obtain ⟨d, hd, rfl⟩ := Option.map_eq_some_iff.mp hx
  exact of_decide_eq_false (List.findIdx?_eq_none_iff.mp h d (List.mem_of_getElem? hd))

theorem idents_modify (s : Agent) (i : ℕ) {f : JadeDevice → JadeDevice} {g : Ident → Ident}
    (h : ∀ d, (f d).ident = g d.ident) (j : ℕ) :
    (s.modify i f).idents[j]? = s.idents[j]?.map fun x => if i = j then g x else x := by
  rw [getElem?_idents, getElem?_idents, modify, List.getElem?_modify]
  cases s.devices[j]? with
  | none => rfl
  | some d =>
      simp only [Option.map_some, Option.map_eq_map]
      split_ifs
      · rw [h]
      · rfl

/-- A step that leaves alone what devices are looked up by. -/
theorem idents_modify_eq (s : Agent) (i : ℕ) {f : JadeDevice → JadeDevice}
    (h : ∀ d, (f d).ident = d.ident) : (s.modify i f).idents = s.idents := by
  apply List.ext_getElem?
  intro j
  rw [idents_modify s i (g := id) h j]
  cases s.idents[j]? with
  | none => rfl
  | some x => simp

/-! ### Steps that leave it alone -/

/-- What a backend waits for changes, and nothing that devices are looked up by. -/
structure Quiet (backend : ℕ) (s t : Agent) : Prop where
  idents : t.idents = s.idents
  m_backends : t.m_backends = s.m_backends
  made : t.made = s.made
  pending : ∀ pending ∈ t.pending, pending ∈ s.pending ∨ pending.backend = backend

theorem Quiet.same (backend : ℕ) (s : Agent) : Quiet backend s s where
  idents := rfl
  m_backends := rfl
  made := rfl
  pending := fun _ h => .inl h

theorem Quiet.trans {backend : ℕ} {s t u : Agent} (h : Quiet backend s t) (h' : Quiet backend t u) :
    Quiet backend s u where
  idents := h'.idents.trans h.idents
  m_backends := h'.m_backends.trans h.m_backends
  made := h'.made.trans h.made
  pending := by
    intro pending hpending
    cases h'.pending pending hpending with
    | inl hold => exact h.pending pending hold
    | inr hnew => exact .inr hnew

theorem quiet_await (pending : Pending) (s : Agent) :
    Quiet pending.backend s (s.await pending) where
  idents := rfl
  m_backends := rfl
  made := rfl
  pending := by
    intro other hother
    cases List.mem_append.mp hother with
    | inl hold => exact .inl hold
    | inr hnew => exact .inr (congrArg Pending.backend (List.mem_singleton.mp hnew))

theorem quiet_modify (backend i : ℕ) {f : JadeDevice → JadeDevice}
    (h : ∀ d, (f d).ident = d.ident) (s : Agent) : Quiet backend s (s.modify i f) where
  idents := idents_modify_eq s i h
  m_backends := rfl
  made := rfl
  pending := fun _ h => .inl h

theorem quiet_disconnected (backend : ℕ) (s : Agent) : Quiet backend s (s.disconnected backend) := by
  unfold disconnected
  split
  · exact .same backend s
  · apply quiet_modify
    intro d
    rfl

theorem quiet_connectDevice (backend : ℕ) (opens : Bool) (s : Agent) :
    Quiet backend s (s.connectDevice backend opens) := by
  unfold connectDevice
  split_ifs
  · exact .same backend s
  · exact { quiet_await (.connected backend) s with }
  · exact quiet_disconnected backend s

theorem quiet_probe (backend : ℕ) (opens : Bool) (s : Agent) :
    Quiet backend s (s.probe backend opens) := by
  unfold probe
  split_ifs
  · exact .same backend s
  · exact (quiet_connectDevice backend opens s).trans (quiet_await (.probe backend) _)

theorem quiet_scan (backend : ℕ) (s : Agent) : Quiet backend s s.scan := by
  unfold scan
  split_ifs
  · exact .same backend s
  · exact { Quiet.same backend s with }

theorem quiet_update (backend : ℕ) (busy : Bool) (s : Agent) :
    Quiet backend s (s.update backend busy) := by
  unfold update
  split
  · exact .same backend s
  · rename_i index _
    split
    · exact .same backend s
    · have hidle : Quiet backend s (s.modify index fun d => { d with status := StatusIdle }) := by
        apply quiet_modify
        intro d
        rfl
      split_ifs
      · exact (quiet_await (.ping backend index) s).trans (quiet_await (.version backend) _)
      · exact hidle.trans (quiet_await (.version backend) _)
      · exact hidle.trans (quiet_await (.update backend) _)

theorem quiet_pinged (backend device : ℕ) (status : Option ℤ) (s : Agent) :
    Quiet backend s (s.pinged backend device status) := by
  unfold pinged
  split
  · apply quiet_modify
    intro d
    rfl
  · split
    · exact { Quiet.same backend s with }
    · apply quiet_modify
      intro d
      rfl

theorem Stays.refl (s : Agent) : Stays s s := fun _ x hx => ⟨x, hx, rfl⟩

theorem Stays.of_eq {s t : Agent} (h : t.idents = s.idents) : Stays s t :=
  fun _ x hx => ⟨x, h ▸ hx, rfl⟩

theorem Stays.trans {s t u : Agent} (h : Stays s t) (h' : Stays t u) : Stays s u := by
  intro i x hx
  obtain ⟨y, hy, hxy⟩ := h i x hx
  obtain ⟨z, hz, hyz⟩ := h' i y hy
  exact ⟨z, hz, hyz.trans hxy⟩

theorem Identified.of_eq {s t : Agent} (hs : s.Identified) (h : t.idents = s.idents)
    (hbackends : ∀ backend ∈ s.backends, backend ∈ t.backends) : t.Identified where
  efusemac := h ▸ hs.efusemac
  api := h ▸ hs.api
  present := by
    intro i x backend hx hapi
    rw [h] at hx
    exact hbackends backend (hs.present i x backend hx hapi)

theorem Quiet.present {backend : ℕ} {s t : Agent} (h : Quiet backend s t) (hs : s.Present)
    (hbackend : backend ∈ s.backends) : t.Present := by
  have hbackends : t.backends = s.backends := congrArg (List.map Prod.snd) h.m_backends
  constructor
  · intro pending hpending
    rw [hbackends]
    cases h.pending pending hpending with
    | inl hold => exact hs.pending pending hold
    | inr hnew => exact hnew ▸ hbackend
  · rw [hbackends, h.made]
    exact hs.lt_made

theorem Quiet.identified {backend : ℕ} {s t : Agent} (h : Quiet backend s t) (hs : s.Identified) :
    t.Identified := by
  apply hs.of_eq h.idents
  intro other hother
  rwa [backends, h.m_backends]

/-! ### A scan -/

/-- What both of a scan's loops keep. -/
structure Good (s : Agent) : Prop where
  present : s.Present
  identified : s.Identified

theorem made_detach (backend : ℕ) (s : Agent) : (s.detach backend).made = s.made := by
  unfold detach
  split <;> rfl

/-- A device that loses its backend is the one that has it. -/
theorem Identified.detach {s : Agent} (hs : s.Identified) (backend i : ℕ) (x : Ident)
    (hx : (s.detach backend).idents[i]? = some x) :
    x.api ≠ some backend ∧ ∃ y, s.idents[i]? = some y ∧ x.efusemac = y.efusemac ∧
      (x.api = y.api ∨ x.api = none) := by
  unfold Agent.detach at hx
  split at hx
  · rename_i hnone
    exact ⟨deviceFromBackend_eq_none hnone i x hx, x, hx, rfl, .inl rfl⟩
  · rename_i device hdevice
    obtain ⟨z, hz, hzapi⟩ := deviceFromBackend_eq_some hdevice
    have hmodify := idents_modify s device (g := fun y => ⟨none, y.efusemac⟩)
      (f := fun d => { d with api := none, connected := false, status := StatusIdle })
      (fun _ => rfl) i
    rw [hmodify] at hx
    obtain ⟨y, hy, hxy⟩ := Option.map_eq_some_iff.mp hx
    split_ifs at hxy with hi
    · rw [← hxy]
      exact ⟨nofun, y, hy, rfl, .inr rfl⟩
    · subst hxy
      refine ⟨fun hapi => hi ?_, y, hy, rfl, .inl rfl⟩
      exact (hs.api device i z y backend hz hy hzapi hapi)

theorem stays_detach (backend : ℕ) (s : Agent) : Stays s (s.detach backend) := by
  unfold Agent.detach
  split
  · exact .refl s
  · rename_i device _
    intro i x hx
    have hmodify := idents_modify s device (g := fun y => ⟨none, y.efusemac⟩)
      (f := fun d => { d with api := none, connected := false, status := StatusIdle })
      (fun _ => rfl) i
    rw [hmodify, hx]
    refine ⟨_, rfl, ?_⟩
    split_ifs <;> rfl

theorem mem_backends_remove {backend other : ℕ} {s : Agent} :
    other ∈ (s.remove backend).backends ↔ other ∈ s.backends ∧ other ≠ backend := by
  simp only [backends, remove, List.mem_map, List.mem_filter, bne_iff_ne]
  constructor
  · rintro ⟨entry, ⟨hentry, hne⟩, rfl⟩
    exact ⟨⟨entry, hentry, rfl⟩, hne⟩
  · rintro ⟨⟨entry, hentry, rfl⟩, hne⟩
    exact ⟨entry, ⟨hentry, hne⟩, rfl⟩

theorem Good.remove {s : Agent} (hs : s.Good) (backend : ℕ) : (s.remove backend).Good := by
  constructor
  · constructor
    · intro pending hpending
      obtain ⟨hold, hne⟩ := List.mem_filter.mp hpending
      exact mem_backends_remove.mpr ⟨hs.present.pending pending hold, bne_iff_ne.mp hne⟩
    · intro other hother
      have hlt := hs.present.lt_made other (mem_backends_remove.mp hother).1
      exact (made_detach backend s).symm ▸ hlt
  · constructor
    · intro i j x y hx hy hxy
      obtain ⟨-, x', hx', hxmac, -⟩ := hs.identified.detach backend i x hx
      obtain ⟨-, y', hy', hymac, -⟩ := hs.identified.detach backend j y hy
      exact hs.identified.efusemac i j x' y' hx' hy' (hxmac ▸ hymac ▸ hxy)
    · intro i j x y other hx hy hxapi hyapi
      obtain ⟨-, x', hx', -, hxsame⟩ := hs.identified.detach backend i x hx
      obtain ⟨-, y', hy', -, hysame⟩ := hs.identified.detach backend j y hy
      rw [hxapi] at hxsame
      rw [hyapi] at hysame
      cases hxsame with
      | inr hnone => cases hnone
      | inl hxsame =>
          cases hysame with
          | inr hnone => cases hnone
          | inl hysame =>
              exact hs.identified.api i j x' y' other hx' hy' hxsame.symm hysame.symm
    · intro i x other hx hapi
      obtain ⟨hne, x', hx', -, hsame⟩ := hs.identified.detach backend i x hx
      rw [hapi] at hsame hne
      cases hsame with
      | inr hnone => cases hnone
      | inl hsame =>
          have hpresent := hs.identified.present i x' other hx' hsame.symm
          exact mem_backends_remove.mpr ⟨hpresent, fun h => hne (congrArg some h)⟩

theorem Good.found {s : Agent} (hs : s.Good) (port : Port) :
    (s.found port).Good ∧ (s.found port).idents = s.idents := by
  unfold Agent.found
  split
  · have hgrown : Good { s with
        m_backends := s.m_backends ++ [(port.systemLocation, s.made)]
        made := s.made + 1 } := by
      have hold : ∀ backend ∈ s.backends, backend ∈ backends { s with
          m_backends := s.m_backends ++ [(port.systemLocation, s.made)]
          made := s.made + 1 } := by
        intro backend hbackend
        simp only [backends, List.map_append, List.mem_append]
        exact .inl hbackend
      constructor
      · constructor
        · exact fun pending hpending => hold _ (hs.present.pending pending hpending)
        · intro backend hbackend
          simp only [backends, List.map_append, List.mem_append, List.map_cons, List.map_nil,
            List.mem_singleton] at hbackend
          cases hbackend with
          | inl hbackend => exact Nat.lt_succ_of_lt (hs.present.lt_made backend hbackend)
          | inr hbackend => exact hbackend ▸ Nat.lt_succ_self s.made
      · exact hs.identified.of_eq rfl hold
    have hquiet := quiet_probe s.made port.opens { s with
        m_backends := s.m_backends ++ [(port.systemLocation, s.made)]
        made := s.made + 1 }
    refine ⟨⟨hquiet.present hgrown.present ?_, hquiet.identified hgrown.identified⟩, hquiet.idents⟩
    simp [backends]
  · rename_i backend hbackend
    split_ifs
    · exact ⟨hs, rfl⟩
    · have hquiet := quiet_probe backend port.opens s
      have hmem : backend ∈ s.backends := by
        obtain ⟨before, after, hsplit, -⟩ := List.lookup_eq_some_iff.mp hbackend
        simp [backends, hsplit]
      exact ⟨⟨hquiet.present hs.present hmem, hquiet.identified hs.identified⟩, hquiet.idents⟩

theorem Good.foldl_found {s : Agent} (hs : s.Good) (ports : List Port) :
    (ports.foldl Agent.found s).Good ∧ (ports.foldl Agent.found s).idents = s.idents := by
  induction ports generalizing s with
  | nil => exact ⟨hs, rfl⟩
  | cons port ports ih =>
      have hfirst := hs.found port
      have hrest := ih hfirst.1
      exact ⟨hrest.1, hrest.2.trans hfirst.2⟩

theorem Good.foldl_remove {s : Agent} (hs : s.Good) (gone : List ℕ) :
    (gone.foldl (fun s backend => s.remove backend) s).Good ∧
      Stays s (gone.foldl (fun s backend => s.remove backend) s) := by
  induction gone generalizing s with
  | nil => exact ⟨hs, .refl s⟩
  | cons backend gone ih =>
      have hrest := ih (hs.remove backend)
      exact ⟨hrest.1, (stays_detach backend s).trans hrest.2⟩

theorem Good.scanned {s : Agent} (hs : s.Good) (ports : List Port) :
    (s.scanned ports).Good ∧ Stays s (s.scanned ports) := by
  have hstart : Good { s with timers := s.timers + 1, watchers := s.watchers - 1 } :=
    ⟨{ hs.present with }, hs.identified.of_eq rfl fun _ h => h⟩
  have hfound := hstart.foldl_found ports
  have hremoved := hfound.1.foldl_remove
    ((s.m_backends.filter fun entry => entry.1 ∉ ports.map Port.systemLocation).map Prod.snd)
  exact ⟨hremoved.1, (Stays.of_eq hfound.2).trans hremoved.2⟩

/-! ### A version info -/

/-- The device for a version info is the one that has its `EFUSEMAC`, or it is new. -/
theorem identify_spec (info : VersionInfo) (s : Agent) :
    (∃ x, s.idents[(s.identify info).2]? = some x ∧ x.efusemac = info.efusemac ∧
        (s.identify info).1 = s) ∨
      (∀ (i : ℕ) (x : Ident), s.idents[i]? = some x → x.efusemac ≠ info.efusemac) ∧
        (s.identify info).2 = s.idents.length ∧
        (s.identify info).1.idents = s.idents ++ [⟨none, info.efusemac⟩] ∧
        (s.identify info).1 = { s with devices := (s.identify info).1.devices } := by
  unfold identify
  split
  · rename_i device hdevice
    obtain ⟨x, hx, hmac⟩ := deviceFromEfusemac_eq_some hdevice
    exact .inl ⟨x, hx, hmac, rfl⟩
  · rename_i hnone
    refine .inr ⟨deviceFromEfusemac_eq_none hnone, ?_, ?_, rfl⟩
    · simp [idents]
    · simp [idents, JadeDevice.ident]

/-- After an answer with a version info, one device has the backend and the `EFUSEMAC`, and the
others are as before. -/
theorem idents_probed (backend : ℕ) (info : VersionInfo) (s : Agent) (i : ℕ) :
    (s.probed backend (.result info)).idents[i]? =
      if i = (s.identify info).2 then some ⟨some backend, info.efusemac⟩ else s.idents[i]? := by
  have hmodify := idents_modify (s.identify info).1 (s.identify info).2
    (g := fun _ => ⟨some backend, info.efusemac⟩)
    (f := fun d => { d with
      api := some backend
      versionInfo := info
      connected := true
      systemLocation := s.systemLocation backend })
    (fun _ => rfl) i
  have hprobed : (s.probed backend (.result info)).idents[i]? = _ := hmodify
  rw [hprobed]
  by_cases hi : i = (s.identify info).2
  · rw [if_pos hi, hi]
    rcases identify_spec info s with ⟨x, hx, -, hsame⟩ | ⟨-, hindex, hidents, -⟩
    · simp [hsame, hx]
    · simp [hidents, hindex]
  · have hid : ∀ found : Option Ident, found.map (fun x =>
        if (s.identify info).2 = i then ⟨some backend, info.efusemac⟩ else x) = found := by
      intro found
      simp only [if_neg (Ne.symm hi), Option.map_id']
    rw [if_neg hi, hid]
    rcases identify_spec info s with ⟨x, hx, -, hsame⟩ | ⟨-, hindex, hidents, -⟩
    · rw [hsame]
    · rw [hidents]
      rw [hindex] at hi
      by_cases hlt : i < s.idents.length
      · exact List.getElem?_append_left hlt
      · rw [List.getElem?_eq_none (by simp; omega), List.getElem?_eq_none (by omega)]

theorem Identified.index_of_efusemac {s : Agent} (hs : s.Identified) {info : VersionInfo} {i : ℕ}
    {x : Ident} (hx : s.idents[i]? = some x) (hmac : x.efusemac = info.efusemac) :
    i = (s.identify info).2 := by
  rcases identify_spec info s with ⟨y, hy, hymac, -⟩ | ⟨hnone, -⟩
  · exact hs.efusemac i _ x y hx hy (hmac.trans hymac.symm)
  · exact absurd hmac (hnone i x hx)

theorem efusemac_of_index {s : Agent} {info : VersionInfo} {x : Ident}
    (hx : s.idents[(s.identify info).2]? = some x) : x.efusemac = info.efusemac := by
  rcases identify_spec info s with ⟨y, hy, hymac, -⟩ | ⟨-, hindex, -⟩
  · rw [hy] at hx
    rw [← Option.some.inj hx, hymac]
  · rw [hindex, List.getElem?_eq_none (Nat.le_refl _)] at hx
    cases hx

theorem m_backends_probed (backend : ℕ) (info : VersionInfo) (s : Agent) :
    (s.probed backend (.result info)).m_backends = s.m_backends := by
  unfold probed identify
  dsimp only
  split <;> rfl

theorem present_probed {backend : ℕ} {s : Agent} (hs : s.Present) (info : VersionInfo)
    (hbackend : backend ∈ s.backends) : (s.probed backend (.result info)).Present := by
  have hquiet := quiet_await (.update backend) s
  have hpresent := hquiet.present hs hbackend
  have hsame : (s.probed backend (.result info)).pending = (s.await (.update backend)).pending ∧
      (s.probed backend (.result info)).made = s.made := by
    unfold probed identify
    dsimp only
    split <;> exact ⟨rfl, rfl⟩
  constructor
  · rw [hsame.1, backends, m_backends_probed]
    exact hpresent.pending
  · rw [hsame.2, backends, m_backends_probed]
    exact hs.lt_made

theorem Good.probed {backend : ℕ} {s : Agent} (hs : s.Good) {info : VersionInfo}
    (hbackend : backend ∈ s.backends) (hswaps : ¬ Swaps s (.probed backend (.result info))) :
    (s.probed backend (.result info)).Good ∧ Stays s (s.probed backend (.result info)) := by
  have hmac : ∀ (i : ℕ) (x : Ident), s.idents[i]? = some x → x.api = some backend →
      x.efusemac = info.efusemac := by
    intro i x hx hapi
    by_contra hne
    exact hswaps ⟨x, List.mem_of_getElem? hx, hapi, hne⟩
  refine ⟨⟨present_probed hs.present info hbackend, ?_, ?_, ?_⟩, ?_⟩
  · intro i j x y hx hy hxy
    rw [idents_probed] at hx hy
    split_ifs at hx hy with hi hj hj
    · exact hi.trans hj.symm
    · rw [← Option.some.inj hx] at hxy
      exact absurd (hs.identified.index_of_efusemac hy hxy.symm) hj
    · rw [← Option.some.inj hy] at hxy
      exact absurd (hs.identified.index_of_efusemac hx hxy) hi
    · exact hs.identified.efusemac i j x y hx hy hxy
  · intro i j x y other hx hy hxapi hyapi
    rw [idents_probed] at hx hy
    split_ifs at hx hy with hi hj hj
    · exact hi.trans hj.symm
    · rw [← Option.some.inj hx] at hxapi
      have hother : some backend = some other := hxapi
      rw [← hother] at hyapi
      exact absurd (hs.identified.index_of_efusemac hy (hmac j y hy hyapi)) hj
    · rw [← Option.some.inj hy] at hyapi
      have hother : some backend = some other := hyapi
      rw [← hother] at hxapi
      exact absurd (hs.identified.index_of_efusemac hx (hmac i x hx hxapi)) hi
    · exact hs.identified.api i j x y other hx hy hxapi hyapi
  · intro i x other hx hapi
    rw [backends, m_backends_probed]
    rw [idents_probed] at hx
    split_ifs at hx with hi
    · rw [← Option.some.inj hx] at hapi
      exact (Option.some.inj hapi) ▸ hbackend
    · exact hs.identified.present i x other hx hapi
  · intro i x hx
    rw [idents_probed]
    split_ifs with hi
    · rw [hi] at hx
      exact ⟨_, rfl, (efusemac_of_index hx).symm⟩
    · exact ⟨x, hx, rfl⟩

/-- Two devices end up on the backend. -/
theorem not_identified_probed {backend : ℕ} {s : Agent} {info : VersionInfo}
    (hswaps : Swaps s (.probed backend (.result info))) :
    ¬ (s.probed backend (.result info)).Identified := by
  intro hidentified
  obtain ⟨x, hmem, hapi, hne⟩ := hswaps
  obtain ⟨i, hx⟩ := List.getElem?_of_mem hmem
  have hi : i ≠ (s.identify info).2 := by
    intro hi
    rw [hi] at hx
    exact hne (efusemac_of_index hx)
  apply hi
  apply hidentified.api i (s.identify info).2 x ⟨some backend, info.efusemac⟩ backend _ _ hapi rfl
  · rw [idents_probed, if_neg hi, hx]
  · rw [idents_probed, if_pos rfl]

/-- After another answer with a version info, the device of the backend has the `EFUSEMAC`. -/
theorem idents_versioned {s : Agent} (hs : s.Identified) (backend : ℕ) (info : VersionInfo)
    (i : ℕ) :
    (s.versioned backend (.result info)).idents[i]? = s.idents[i]?.map fun x =>
      if x.api = some backend then ⟨x.api, info.efusemac⟩ else x := by
  unfold versioned
  split
  · rename_i hnone
    have hother := deviceFromBackend_eq_none hnone i
    have hidents : (s.await (.update backend)).idents[i]? = s.idents[i]? := rfl
    rw [hidents]
    cases hx : s.idents[i]? with
    | none => rfl
    | some x => simp [hother x hx]
  · rename_i device hdevice
    obtain ⟨y, hy, hyapi⟩ := deviceFromBackend_eq_some hdevice
    have hmodify := idents_modify s device (g := fun x => ⟨x.api, info.efusemac⟩)
      (f := fun d => { d with versionInfo := info, connected := true }) (fun _ => rfl) i
    refine hmodify.trans ?_
    cases hx : s.idents[i]? with
    | none => rfl
    | some x =>
        have hiff : device = i ↔ x.api = some backend := by
          constructor
          · intro h
            rw [← h, hy] at hx
            rw [← Option.some.inj hx, hyapi]
          · exact fun hapi => hs.api device i y x backend hy hx hyapi hapi
        simp [hiff]

/-! ### The steps of a run -/

/-- There is still one device for each `EFUSEMAC` and one for each backend, and each is the one
that it was. -/
def Keeps (s : Agent) (e : Event) : Prop := (s.next e).Identified ∧ Stays s (s.next e)

theorem Quiet.good {backend : ℕ} {s t : Agent} (h : Quiet backend s t) (hs : s.Good)
    (hbackend : backend ∈ s.backends) : t.Good ∧ Stays s t :=
  ⟨⟨h.present hs.present hbackend, h.identified hs.identified⟩, .of_eq h.idents⟩

theorem Quiet.good_of_pending {backend : ℕ} {s t : Agent} (h : Quiet backend s t) (hs : s.Good)
    (hpending : t.pending = s.pending) : t.Good ∧ Stays s t := by
  refine ⟨⟨⟨?_, ?_⟩, h.identified hs.identified⟩, .of_eq h.idents⟩
  · rw [hpending, backends, h.m_backends]
    exact hs.present.pending
  · rw [h.made, backends, h.m_backends]
    exact hs.present.lt_made

theorem pending_disconnected (backend : ℕ) (s : Agent) :
    (s.disconnected backend).pending = s.pending := by
  unfold disconnected
  split <;> rfl

theorem pending_scan (s : Agent) : s.scan.pending = s.pending := by
  unfold scan
  split_ifs <;> rfl

theorem quiet_versioned (backend : ℕ) {reply : Reply} (hreply : ∀ info, reply ≠ .result info)
    (s : Agent) : Quiet backend s (s.versioned backend reply) := by
  unfold versioned
  split
  · exact quiet_await (.update backend) s
  · rename_i device _
    split
    · have hidle : Quiet backend s
          (s.modify device fun d => { d with connected := false, status := StatusIdle }) := by
        apply quiet_modify
        intro d
        rfl
      exact hidle.trans (quiet_await (.update backend) _)
    · exact absurd rfl (hreply _)
    · exact quiet_await (.update backend) s

theorem quiet_probed (backend : ℕ) {reply : Reply} (hreply : ∀ info, reply ≠ .result info)
    (s : Agent) : Quiet backend s (s.probed backend reply) := by
  unfold probed
  split
  · split_ifs
    · exact quiet_await (.retry backend) s
    · exact .same backend s
  · exact absurd rfl (hreply _)
  · exact quiet_await (.update backend) s

/-- What has been answered is no longer to come. -/
theorem Good.answered {s : Agent} (hs : s.Good) (pending : Pending) : (s.answered pending).Good :=
  ⟨⟨fun other hother => hs.present.pending other (List.mem_of_mem_erase hother),
    hs.present.lt_made⟩, hs.identified.of_eq rfl fun _ h => h⟩

theorem Good.versioned {backend : ℕ} {s : Agent} (hs : s.Good) {info : VersionInfo}
    (hbackend : backend ∈ s.backends) (hswaps : ¬ Swaps s (.versioned backend (.result info))) :
    (s.versioned backend (.result info)).Good ∧ Stays s (s.versioned backend (.result info)) := by
  have hidents : (s.versioned backend (.result info)).idents = s.idents := by
    apply List.ext_getElem?
    intro i
    rw [idents_versioned hs.identified]
    cases hx : s.idents[i]? with
    | none => rfl
    | some x =>
        rw [Option.map_some]
        split_ifs with hapi
        · have hmac : x.efusemac = info.efusemac := by
            by_contra hne
            exact hswaps ⟨x, List.mem_of_getElem? hx, hapi, hne⟩
          rw [← hmac]
        · rfl
  have hquiet : Quiet backend s (s.versioned backend (.result info)) := by
    have hsame : (s.versioned backend (.result info)).pending = (s.await (.update backend)).pending ∧
        (s.versioned backend (.result info)).m_backends = s.m_backends ∧
        (s.versioned backend (.result info)).made = s.made := by
      unfold Agent.versioned
      split <;> exact ⟨rfl, rfl, rfl⟩
    exact ⟨hidents, hsame.2.1, hsame.2.2, hsame.1 ▸ (quiet_await (.update backend) s).pending⟩
  exact hquiet.good hs hbackend

/-- The device of the backend becomes another. -/
theorem not_stays_versioned {backend : ℕ} {s : Agent} (hs : s.Identified) {info : VersionInfo}
    (hswaps : Swaps s (.versioned backend (.result info))) :
    ¬ Stays s (s.versioned backend (.result info)) := by
  intro hstays
  obtain ⟨x, hmem, hapi, hne⟩ := hswaps
  obtain ⟨i, hx⟩ := List.getElem?_of_mem hmem
  obtain ⟨y, hy, hyx⟩ := hstays i x hx
  rw [idents_versioned hs, hx, Option.map_some, if_pos hapi] at hy
  rw [← Option.some.inj hy] at hyx
  exact hne hyx.symm

theorem good_next {s : Agent} (hs : s.Good) {e : Event} (he : s.enabled e)
    (hswaps : ¬ Swaps s e) : (s.next e).Good ∧ Stays s (s.next e) := by
  cases e with
  | scan => exact (quiet_scan 0 s).good_of_pending hs (pending_scan s)
  | scanned ports => exact hs.scanned ports
  | disconnected backend =>
      have hclosed : Good { s with
          isConnected := Function.update s.isConnected backend false } :=
        ⟨{ hs.present with }, { hs.identified with }⟩
      exact (quiet_disconnected backend _).good_of_pending hclosed (pending_disconnected backend _)
  | setLocked backend locked =>
      exact ⟨⟨{ hs.present with }, { hs.identified with }⟩, .refl s⟩
  | connected backend opens =>
      have hbackend := hs.present.pending _ he
      exact (quiet_probe backend opens _).good (hs.answered _) hbackend
  | retry backend opens =>
      have hbackend := hs.present.pending _ he
      exact (quiet_probe backend opens _).good (hs.answered _) hbackend
  | update backend busy =>
      have hbackend := hs.present.pending _ he
      exact (quiet_update backend busy _).good (hs.answered _) hbackend
  | pinged backend device status =>
      have hbackend := hs.present.pending _ he
      exact (quiet_pinged backend device status _).good (hs.answered _) hbackend
  | probed backend reply =>
      have hbackend := hs.present.pending _ he
      cases reply with
      | result info => exact (hs.answered (.probe backend)).probed hbackend hswaps
      | error message =>
          have hquiet := quiet_probed backend (Reply.error_ne_result message)
            (s.answered (.probe backend))
          exact hquiet.good (hs.answered _) hbackend
      | nothing =>
          have hquiet := quiet_probed backend Reply.nothing_ne_result
            (s.answered (.probe backend))
          exact hquiet.good (hs.answered _) hbackend
  | versioned backend reply =>
      have hbackend := hs.present.pending _ he
      cases reply with
      | result info => exact (hs.answered (.version backend)).versioned hbackend hswaps
      | error message =>
          have hquiet := quiet_versioned backend (Reply.error_ne_result message)
            (s.answered (.version backend))
          exact hquiet.good (hs.answered _) hbackend
      | nothing =>
          have hquiet := quiet_versioned backend Reply.nothing_ne_result
            (s.answered (.version backend))
          exact hquiet.good (hs.answered _) hbackend

theorem keeps_iff {s : Agent} (hs : s.Good) {e : Event} (he : s.enabled e) :
    Keeps s e ↔ ¬ Swaps s e := by
  constructor
  · intro hkeeps hswaps
    cases e with
    | probed backend reply =>
        cases reply with
        | result info =>
            have hanswered : Swaps (s.answered (.probe backend)) (.probed backend (.result info)) :=
              hswaps
            exact not_identified_probed hanswered hkeeps.1
        | error message => exact hswaps
        | nothing => exact hswaps
    | versioned backend reply =>
        cases reply with
        | result info =>
            exact not_stays_versioned (hs.answered (.version backend)).identified hswaps hkeeps.2
        | error message => exact hswaps
        | nothing => exact hswaps
    | _ => exact hswaps
  · intro hswaps
    have hnext := good_next hs he hswaps
    exact ⟨hnext.1.identified, hnext.2⟩

theorem Good.fresh : Good {} := by
  constructor
  · exact ⟨nofun, nofun⟩
  · exact ⟨nofun, nofun, nofun⟩

/-- **One device for each Jade.** Whatever ports come and go, and whatever the backends answer:
through a run there is one device for each `EFUSEMAC` and one for each backend, none on a backend
that has been removed, and each stays the device that it is, exactly if no backend of a device
answers with the version info of another. -/
theorem one_device_each {es : List Event} (hes : agent.Valid {} es) :
    agent.Along Keeps {} es ↔ agent.Along (fun s e => ¬ Swaps s e) {} es :=
  Reactive.along_iff_along_of_keeps (I := Good) (V := agent.enabled)
    (fun _ _ hs he hswaps => (good_next hs he.2 hswaps).1)
    (fun _ _ hs he => keeps_iff hs he.2) .fresh hes

def jadeInfo (efusemac : String) : VersionInfo := ⟨efusemac, ⟨[1, 0, 37]⟩⟩

/-- A Jade is plugged in again at another port, while the first one is still listed. -/
def replugged : List Event :=
  [.scanned [⟨"ttyUSB0", true⟩], .probed 0 (.result (jadeInfo "A")), .scan,
    .scanned [⟨"ttyUSB0", true⟩, ⟨"ttyUSB1", true⟩], .probed 1 (.result (jadeInfo "A")), .scan,
    .scanned [⟨"ttyUSB1", true⟩]]

theorem one_device_each_replugged : agent.Along Keeps {} replugged := by
  have hes : agent.Valid {} replugged := by decide +kernel
  have hswaps : agent.Along (fun s e => ¬ Swaps s e) {} replugged := by decide +kernel
  exact (one_device_each hes).mpr hswaps

end Agent
end GreenWallet.Jade.Discovery
