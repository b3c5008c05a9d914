import GreenWallet.Jade.Identity
import GreenWallet.Library.Keyed
import GreenWallet.Library.Leases

/-!
# The ports of the backends

The backends are those of the ports that the last scan has found. A port keeps its backend for as
long as every scan finds it.
-/
namespace GreenWallet.Jade.Discovery
open GreenWallet.Library

/-- The ports of the last scan. -/
def listed (es : List Event) : List String :=
  es.foldl
    (fun last e =>
      match e with
      | .scanned ports => ports.map Port.systemLocation
      | _ => last)
    []

theorem listed_concat_scanned (es : List Event) (ports : List Port) :
    listed (es ++ [.scanned ports]) = ports.map Port.systemLocation := by
  simp [listed]

theorem listed_concat_other (es : List Event) {e : Event} (he : ∀ ports, e ≠ .scanned ports) :
    listed (es ++ [e]) = listed es := by
  unfold listed
  rw [List.foldl_concat]
  cases e with
  | scanned ports => exact absurd rfl (he ports)
  | _ => rfl

namespace Agent

/-- A backend is leased to a port. -/
def leases (s : Agent) : Leases String where
  next := s.made
  holds := fun location => s.m_backends.lookup location

structure Table (s : Agent) : Prop where
  nodup : (s.m_backends.map Prod.fst).Nodup
  kept : s.leases.Kept

theorem Table.holds_iff {s : Agent} (hs : s.Table) {location : String} {backend : ℕ} :
    s.leases.holds location = some backend ↔ (location, backend) ∈ s.m_backends :=
  Keyed.lookup_eq_some_iff_mem hs.nodup

/-! ### What only scans change -/

structure Scans where
  m_backends : List (String × ℕ)
  made : ℕ
  timers : ℕ
  watchers : ℕ

def scans (s : Agent) : Scans := ⟨s.m_backends, s.made, s.timers, s.watchers⟩

theorem leases_of_scans {s t : Agent} (h : t.scans = s.scans) : t.leases = s.leases := by
  have hbackends : t.m_backends = s.m_backends := congrArg Scans.m_backends h
  have hmade : t.made = s.made := congrArg Scans.made h
  unfold leases
  rw [hbackends, hmade]

theorem Table.of_scans {s t : Agent} (hs : s.Table) (h : t.scans = s.scans) : t.Table where
  nodup := by
    have hbackends : t.m_backends = s.m_backends := congrArg Scans.m_backends h
    rw [hbackends]
    exact hs.nodup
  kept := by
    rw [leases_of_scans h]
    exact hs.kept

theorem scans_disconnected (backend : ℕ) (s : Agent) : (s.disconnected backend).scans = s.scans := by
  unfold disconnected
  split <;> rfl

theorem scans_connectDevice (backend : ℕ) (opens : Bool) (s : Agent) :
    (s.connectDevice backend opens).scans = s.scans := by
  unfold connectDevice
  split_ifs
  · rfl
  · rfl
  · exact scans_disconnected backend s

theorem scans_probe (backend : ℕ) (opens : Bool) (s : Agent) :
    (s.probe backend opens).scans = s.scans := by
  unfold probe
  split_ifs
  · rfl
  · exact scans_connectDevice backend opens s

theorem scans_identify (info : VersionInfo) (s : Agent) : (s.identify info).1.scans = s.scans := by
  unfold identify
  split <;> rfl

theorem scans_probed (backend : ℕ) (reply : Reply) (s : Agent) :
    (s.probed backend reply).scans = s.scans := by
  cases reply with
  | error message =>
      unfold probed
      dsimp only
      split_ifs <;> rfl
  | result info => exact scans_identify info s
  | nothing => rfl

theorem scans_update (backend : ℕ) (busy : Bool) (s : Agent) :
    (s.update backend busy).scans = s.scans := by
  unfold update
  split
  · rfl
  · split
    · rfl
    · split_ifs <;> rfl

theorem scans_pinged (backend device : ℕ) (status : Option ℤ) (s : Agent) :
    (s.pinged backend device status).scans = s.scans := by
  unfold pinged
  split
  · rfl
  · split <;> rfl

theorem scans_versioned (backend : ℕ) (reply : Reply) (s : Agent) :
    (s.versioned backend reply).scans = s.scans := by
  unfold versioned
  split
  · rfl
  · cases reply <;> rfl

/-- Steps other than those of a scan leave the ports alone. -/
theorem scans_next (s : Agent) {e : Event} (hscan : e ≠ .scan) (hscanned : ∀ ports, e ≠ .scanned ports) :
    (s.next e).scans = s.scans := by
  cases e with
  | scan => exact absurd rfl hscan
  | scanned ports => exact absurd rfl (hscanned ports)
  | disconnected backend => exact scans_disconnected backend _
  | setLocked backend locked => rfl
  | connected backend opens => exact scans_probe backend opens _
  | probed backend reply => exact scans_probed backend reply _
  | retry backend opens => exact scans_probe backend opens _
  | update backend busy => exact scans_update backend busy _
  | pinged backend device status => exact scans_pinged backend device status _
  | versioned backend reply => exact scans_versioned backend reply _

/-! ### A port that is found -/

/-- A port that has no backend gets one. -/
theorem leases_grown {s : Agent} {location : String} (h : s.m_backends.lookup location = none) :
    leases { s with
        m_backends := s.m_backends ++ [(location, s.made)]
        made := s.made + 1 } = s.leases.lease location := by
  have hholds : (fun other => (s.m_backends ++ [(location, s.made)]).lookup other) =
      Function.update s.leases.holds location (some s.made) := by
    funext other
    rw [List.lookup_append, List.lookup_cons, Function.update_apply]
    by_cases hother : other = location
    · simp [hother, h]
    · simp [beq_false_of_ne hother, hother, leases]
  exact congrArg (Leases.mk (s.made + 1)) hholds

theorem Table.found {s : Agent} (hs : s.Table) (port : Port) :
    (s.found port).Table ∧
      (s.found port).leases =
        if s.leases.holds port.systemLocation = none then s.leases.lease port.systemLocation
        else s.leases := by
  unfold Agent.found
  split
  · rename_i hnone
    have hgrown : Table { s with
        m_backends := s.m_backends ++ [(port.systemLocation, s.made)]
        made := s.made + 1 } := by
      constructor
      · have hnew : port.systemLocation ∉ s.m_backends.map Prod.fst := by
          intro hmem
          obtain ⟨entry, hentry, hlocation⟩ := List.mem_map.mp hmem
          exact bne_iff_ne.mp (List.lookup_eq_none_iff.mp hnone entry hentry) hlocation.symm
        rw [List.map_append]
        refine List.nodup_append.mpr ⟨hs.nodup, List.nodup_singleton _, ?_⟩
        intro location hlocation other hother hsame
        rw [hsame, List.mem_singleton.mp hother] at hlocation
        exact hnew hlocation
      · rw [leases_grown hnone]
        exact hs.kept.lease _
    have hprobed := scans_probe s.made port.opens { s with
        m_backends := s.m_backends ++ [(port.systemLocation, s.made)]
        made := s.made + 1 }
    refine ⟨hgrown.of_scans hprobed, ?_⟩
    rw [leases_of_scans hprobed, leases_grown hnone]
    exact (if_pos hnone).symm
  · rename_i backend hbackend
    have hheld : s.leases.holds port.systemLocation ≠ none := by
      intro hnone
      cases hbackend.symm.trans hnone
    rw [if_neg hheld]
    split_ifs
    · exact ⟨hs, rfl⟩
    · have hprobed := scans_probe backend port.opens s
      exact ⟨hs.of_scans hprobed, leases_of_scans hprobed⟩

/-- What the first loop of a scan has done. -/
structure Found (s t : Agent) (ports : List Port) : Prop where
  table : t.Table
  later : Leases.Later s.leases t.leases
  keeps : ∀ location backend, s.leases.holds location = some backend →
    t.leases.holds location = some backend
  found_iff : ∀ location, (t.leases.holds location).isSome ↔
    (s.leases.holds location).isSome ∨ location ∈ ports.map Port.systemLocation

theorem Found.same {s : Agent} (hs : s.Table) : Found s s [] where
  table := hs
  later := .same _
  keeps := fun _ _ h => h
  found_iff := by simp

theorem Found.cons {s : Agent} (hs : s.Table) {port : Port} {ports : List Port} {t : Agent}
    (h : Found (s.found port) t ports) : Found s t (port :: ports) := by
  have hleases := (hs.found port).2
  have hkeeps : ∀ location backend, s.leases.holds location = some backend →
      (s.found port).leases.holds location = some backend := by
    intro location backend hheld
    rw [hleases]
    split_ifs with hnone
    · rw [Leases.holds_lease, if_neg]
      · exact hheld
      · intro hlocation
        rw [hlocation, hnone] at hheld
        cases hheld
    · exact hheld
  have hlater : Leases.Later s.leases (s.found port).leases := by
    rw [hleases]
    split_ifs
    · exact .lease _ _
    · exact .same _
  have hiff : ∀ location, ((s.found port).leases.holds location).isSome ↔
      (s.leases.holds location).isSome ∨ location = port.systemLocation := by
    intro location
    rw [hleases]
    split_ifs with hnone
    · rw [Leases.holds_lease]
      split_ifs with hlocation
      · simp [hlocation]
      · simp [hlocation]
    · constructor
      · exact .inl
      · intro hheld
        cases hheld with
        | inl hheld => exact hheld
        | inr hlocation => exact hlocation ▸ Option.isSome_iff_ne_none.mpr hnone
  constructor
  · exact h.table
  · exact hlater.trans h.later
  · exact fun location backend hheld => h.keeps location backend (hkeeps location backend hheld)
  · intro location
    rw [h.found_iff, hiff, List.map_cons, List.mem_cons, or_assoc]

theorem Found.foldl {s : Agent} (hs : s.Table) (ports : List Port) :
    Found s (ports.foldl Agent.found s) ports := by
  induction ports generalizing s with
  | nil => exact .same hs
  | cons port ports ih => exact .cons hs (ih (hs.found port).1)

/-! ### The ports that are gone -/

theorem m_backends_foldl_remove (s : Agent) (gone : List ℕ) :
    (gone.foldl (fun s backend => s.remove backend) s).m_backends =
        s.m_backends.filter (fun entry => entry.2 ∉ gone) ∧
      (gone.foldl (fun s backend => s.remove backend) s).made = s.made := by
  induction gone generalizing s with
  | nil => simp
  | cons backend gone ih =>
      have hrest := ih (s.remove backend)
      have hremoved : (s.remove backend).m_backends =
          s.m_backends.filter fun entry => entry.2 != backend := rfl
      constructor
      · rw [List.foldl_cons, hrest.1, hremoved, List.filter_filter]
        apply List.filter_congr
        intro entry _
        rw [Bool.eq_iff_iff]
        simp [and_comm]
      · rw [List.foldl_cons, hrest.2]
        exact made_detach backend s

/-- What the first loop of a scan makes of the state. -/
def afterFound (ports : List Port) (s : Agent) : Agent :=
  ports.foldl Agent.found { s with timers := s.timers + 1, watchers := s.watchers - 1 }

theorem Table.afterFound {s : Agent} (hs : s.Table) (ports : List Port) :
    Found s (s.afterFound ports) ports := by
  have hstart : Table { s with timers := s.timers + 1, watchers := s.watchers - 1 } :=
    ⟨hs.nodup, hs.kept⟩
  have hfound := Found.foldl hstart ports
  exact ⟨hfound.table, hfound.later, hfound.keeps, hfound.found_iff⟩

theorem mem_gone {s : Agent} {ports : List Port} {backend : ℕ} :
    backend ∈ (s.m_backends.filter fun entry =>
        entry.1 ∉ ports.map Port.systemLocation).map Prod.snd ↔
      ∃ location, location ∉ ports.map Port.systemLocation ∧ (location, backend) ∈ s.m_backends := by
  simp only [List.mem_map, List.mem_filter, decide_eq_true_eq]
  constructor
  · intro ⟨entry, ⟨hentry, hgone⟩, hbackend⟩
    exact ⟨entry.1, hgone, hbackend ▸ hentry⟩
  · intro ⟨location, hgone, hentry⟩
    exact ⟨(location, backend), ⟨hentry, hgone⟩, rfl⟩

/-- What a scan has done. -/
structure Scanned (s t : Agent) (ports : List Port) : Prop where
  table : t.Table
  later : Leases.Later s.leases t.leases
  found_iff : ∀ location, (t.leases.holds location).isSome ↔
    location ∈ ports.map Port.systemLocation
  keeps : ∀ location backend, location ∈ ports.map Port.systemLocation →
    s.leases.holds location = some backend → t.leases.holds location = some backend

/-- After a scan, the backends of the ports that it has found are left. -/
theorem mem_m_backends_scanned {s : Agent} (hs : s.Table) (ports : List Port) (location : String)
    (backend : ℕ) :
    (location, backend) ∈ (s.scanned ports).m_backends ↔
      location ∈ ports.map Port.systemLocation ∧
        (s.afterFound ports).leases.holds location = some backend := by
  have hfound := hs.afterFound ports
  have hm_backends := (m_backends_foldl_remove (s.afterFound ports)
    ((s.m_backends.filter fun entry =>
      entry.1 ∉ ports.map Port.systemLocation).map Prod.snd)).1
  have hscanned : (s.scanned ports).m_backends = _ := hm_backends
  rw [hscanned, List.mem_filter, decide_eq_true_eq, mem_gone, ← hfound.table.holds_iff]
  constructor
  · intro ⟨hheld, hkept⟩
    refine ⟨?_, hheld⟩
    by_contra hgone
    have hsome := (hfound.found_iff location).mp (by rw [hheld]; rfl)
    have hbefore := hsome.resolve_right hgone
    obtain ⟨before, hbefore⟩ := Option.isSome_iff_exists.mp hbefore
    have hsame := (hfound.keeps location before hbefore).symm.trans hheld
    rw [Option.some.inj hsame] at hbefore
    exact hkept ⟨location, hgone, hs.holds_iff.mp hbefore⟩
  · intro ⟨hport, hheld⟩
    refine ⟨hheld, ?_⟩
    intro ⟨other, hgone, hentry⟩
    have hother := hfound.keeps other backend (hs.holds_iff.mpr hentry)
    exact hgone (hfound.table.kept.owner other location backend hother hheld ▸ hport)

theorem Table.scanned {s : Agent} (hs : s.Table) (ports : List Port) :
    Scanned s (s.scanned ports) ports := by
  have hfound := hs.afterFound ports
  have hremoved := m_backends_foldl_remove (s.afterFound ports)
    ((s.m_backends.filter fun entry =>
      entry.1 ∉ ports.map Port.systemLocation).map Prod.snd)
  have hnodup : ((s.scanned ports).m_backends.map Prod.fst).Nodup := by
    have hscanned : (s.scanned ports).m_backends = _ := hremoved.1
    rw [hscanned]
    exact hfound.table.nodup.sublist (List.filter_sublist.map Prod.fst)
  have hmade : (s.scanned ports).leases.next = (s.afterFound ports).leases.next := hremoved.2
  have hiff : ∀ location backend, (s.scanned ports).leases.holds location = some backend ↔
      location ∈ ports.map Port.systemLocation ∧
        (s.afterFound ports).leases.holds location = some backend := by
    intro location backend
    exact (Keyed.lookup_eq_some_iff_mem hnodup).trans (mem_m_backends_scanned hs ports location backend)
  constructor
  · constructor
    · exact hnodup
    · constructor
      · intro location backend hheld
        rw [hmade]
        exact hfound.table.kept.lt_next location backend ((hiff location backend).mp hheld).2
      · intro location other backend hheld hother
        exact hfound.table.kept.owner location other backend ((hiff location backend).mp hheld).2
          ((hiff other backend).mp hother).2
  · constructor
    · rw [hmade]
      exact hfound.later.next_le
    · intro location backend hlt hheld
      exact hfound.later.held_before location backend hlt ((hiff location backend).mp hheld).2
  · intro location
    constructor
    · intro hsome
      obtain ⟨backend, hheld⟩ := Option.isSome_iff_exists.mp hsome
      exact ((hiff location backend).mp hheld).1
    · intro hport
      have hsome := (hfound.found_iff location).mpr (.inr hport)
      obtain ⟨backend, hheld⟩ := Option.isSome_iff_exists.mp hsome
      rw [(hiff location backend).mpr ⟨hport, hheld⟩]
      rfl
  · intro location backend hport hheld
    exact (hiff location backend).mpr ⟨hport, hfound.keeps location backend hheld⟩

/-! ### The scan to come -/

theorem pending_scans_found (s : Agent) (port : Port) :
    (s.found port).timers = s.timers ∧ (s.found port).watchers = s.watchers := by
  unfold found
  split
  · have hprobed := scans_probe s.made port.opens { s with
        m_backends := s.m_backends ++ [(port.systemLocation, s.made)]
        made := s.made + 1 }
    exact ⟨congrArg Scans.timers hprobed, congrArg Scans.watchers hprobed⟩
  · rename_i backend _
    split_ifs
    · exact ⟨rfl, rfl⟩
    · have hprobed := scans_probe backend port.opens s
      exact ⟨congrArg Scans.timers hprobed, congrArg Scans.watchers hprobed⟩

theorem pending_scans_remove (s : Agent) (backend : ℕ) :
    (s.remove backend).timers = s.timers ∧ (s.remove backend).watchers = s.watchers := by
  unfold remove detach
  split <;> exact ⟨rfl, rfl⟩

theorem pending_scans_foldl {α : Type} {body : Agent → α → Agent}
    (h : ∀ s x, (body s x).timers = s.timers ∧ (body s x).watchers = s.watchers) (xs : List α)
    (s : Agent) :
    (xs.foldl body s).timers = s.timers ∧ (xs.foldl body s).watchers = s.watchers := by
  induction xs generalizing s with
  | nil => exact ⟨rfl, rfl⟩
  | cons x xs ih =>
      have hfirst := h s x
      have hrest := ih (body s x)
      exact ⟨hrest.1.trans hfirst.1, hrest.2.trans hfirst.2⟩

/-- A scan's result is the end of the scan and sets the timer for the next. -/
theorem pending_scans_scanned (s : Agent) (ports : List Port) :
    (s.scanned ports).timers = s.timers + 1 ∧ (s.scanned ports).watchers = s.watchers - 1 := by
  have hfound := pending_scans_foldl pending_scans_found ports
    { s with timers := s.timers + 1, watchers := s.watchers - 1 }
  have hremoved := pending_scans_foldl pending_scans_remove
    ((s.m_backends.filter fun entry =>
      entry.1 ∉ ports.map Port.systemLocation).map Prod.snd) (s.afterFound ports)
  exact ⟨hremoved.1.trans hfound.1, hremoved.2.trans hfound.2⟩

/-! ### Runs -/

/-- One scan is to come or is running. -/
structure Scanning (s : Agent) : Prop where
  table : s.Table
  one : s.timers + s.watchers = 1

theorem Scanning.of_scans {s t : Agent} (hs : s.Scanning) (h : t.scans = s.scans) :
    t.Scanning where
  table := hs.table.of_scans h
  one := by
    have htimers : t.timers = s.timers := congrArg Scans.timers h
    have hwatchers : t.watchers = s.watchers := congrArg Scans.watchers h
    rw [htimers, hwatchers]
    exact hs.one

theorem Scanning.scan {s : Agent} (hs : s.Scanning) (he : 0 < s.timers) :
    s.scan.Scanning ∧ s.scan.leases = s.leases := by
  have hone := hs.one
  unfold Agent.scan
  split_ifs
  · exact ⟨hs, rfl⟩
  · refine ⟨⟨⟨hs.table.nodup, hs.table.kept⟩, ?_⟩, rfl⟩
    dsimp only
    omega

/-- A step leaves the backends with their ports, or it is the result of a scan. -/
theorem Scanning.next {s : Agent} (hs : s.Scanning) {e : Event} (he : s.enabled e) :
    (s.next e).Scanning ∧
      ((∀ ports, e ≠ .scanned ports) ∧ (s.next e).leases = s.leases ∨
        ∃ ports, e = .scanned ports ∧ Scanned s (s.next e) ports) := by
  by_cases hscan : e = .scan
  · subst hscan
    have hnext := hs.scan he
    exact ⟨hnext.1, .inl ⟨nofun, hnext.2⟩⟩
  by_cases hscanned : ∃ ports, e = .scanned ports
  · obtain ⟨ports, rfl⟩ := hscanned
    have hnext := hs.table.scanned ports
    have hpending := pending_scans_scanned s ports
    have hone := hs.one
    have hwatchers : 0 < s.watchers := he.1
    refine ⟨⟨hnext.table, ?_⟩, .inr ⟨ports, rfl, hnext⟩⟩
    have hsum : (s.scanned ports).timers + (s.scanned ports).watchers = 1 := by omega
    exact hsum
  · have hother : ∀ ports, e ≠ .scanned ports := fun ports h => hscanned ⟨ports, h⟩
    have hscans := scans_next s hscan hother
    exact ⟨hs.of_scans hscans, .inl ⟨hother, leases_of_scans hscans⟩⟩

theorem Scanning.later {s : Agent} (hs : s.Scanning) {e : Event} (he : s.enabled e) :
    Leases.Later s.leases (s.next e).leases := by
  cases (hs.next he).2 with
  | inl hother =>
      rw [hother.2]
      exact .same _
  | inr hscanned =>
      obtain ⟨ports, _, hscanned⟩ := hscanned
      exact hscanned.later

theorem Scanning.fresh : Scanning {} where
  table := ⟨List.nodup_nil, nofun, nofun⟩
  one := rfl

theorem scanning_run {s : Agent} (hs : s.Scanning) {es : List Event} (hes : agent.Valid s es) :
    (agent.run s es).Scanning :=
  Reactive.run_invariant (I := Scanning) (fun _ _ hs he => (hs.next he.2).1) hs hes

theorem later_run {s : Agent} (hs : s.Scanning) {es : List Event} (hes : agent.Valid s es) :
    Leases.Later s.leases (agent.run s es).leases :=
  Leases.run_later (J := Scanning) (fun _ _ hs he => (hs.next he.2).1)
    (fun _ _ hs he => hs.later he.2) hs hes

/-- The ports that have a backend are those of the last scan. -/
theorem holds_run_isSome {es : List Event} (hes : agent.Valid {} es) (location : String) :
    ((agent.run {} es).leases.holds location).isSome ↔ location ∈ listed es := by
  refine Reactive.run_history agent
    (I := fun es s => (s.leases.holds location).isSome ↔ location ∈ listed es) ?_ ?_
  · simp [leases, listed]
  · intro fs e gs hsplit hfs
    subst hsplit
    have he := hes.at fs
    have hs := scanning_run .fresh ((agent.along_append _ {} fs (e :: gs)).mp hes).1
    cases (hs.next he.2).2 with
    | inl hother =>
        rw [listed_concat_other fs hother.1, ← hfs]
        exact iff_of_eq (congrArg (fun l => (l.holds location).isSome = true) hother.2)
    | inr hscanned =>
        obtain ⟨ports, rfl, hscanned⟩ := hscanned
        rw [listed_concat_scanned]
        exact hscanned.found_iff location

/-- A port keeps its backend for as long as every scan finds it. -/
theorem holds_run_iff {s : Agent} (hs : s.Scanning) {es : List Event} (hes : agent.Valid s es)
    {location : String} {backend : ℕ} (h : s.leases.holds location = some backend) :
    (agent.run s es).leases.holds location = some backend ↔
      ∀ ports, .scanned ports ∈ es → location ∈ ports.map Port.systemLocation := by
  induction es generalizing s with
  | nil => exact iff_of_true h nofun
  | cons e es ih =>
      have hnext := hs.next hes.1.2
      have hrest := ih hnext.1 hes.2
      rw [Reactive.run_cons]
      cases hnext.2 with
      | inl hother =>
          have hheld : (s.next e).leases.holds location = some backend := hother.2 ▸ h
          have hrest := hrest hheld
          refine hrest.trans ?_
          simp only [List.mem_cons]
          constructor
          · intro hall ports hports
            exact hall ports (hports.resolve_left fun he => hother.1 ports he.symm)
          · exact fun hall ports hports => hall ports (.inr hports)
      | inr hscanned =>
          obtain ⟨ports, rfl, hscanned⟩ := hscanned
          by_cases hport : location ∈ ports.map Port.systemLocation
          · refine (hrest (hscanned.keeps location backend hport h)).trans ?_
            simp only [List.mem_cons]
            constructor
            · intro hall other hother
              cases hother with
              | inl hsame =>
                  cases hsame
                  exact hport
              | inr hother => exact hall other hother
            · exact fun hall other hother => hall other (.inr hother)
          · refine iff_of_false ?_ fun hall => hport (hall ports List.mem_cons_self)
            intro hheld
            have hlt := Nat.lt_of_lt_of_le (hs.table.kept.lt_next location backend h)
              hscanned.later.next_le
            have hbefore := (later_run hnext.1 hes.2).held_before location backend hlt hheld
            exact hport ((hscanned.found_iff location).mp (by rw [hbefore]; rfl))

/-- **The backends follow the scans.** At any time one scan is to come or is running, and the
ports with a backend are those that the last scan has found. From then on the backend is at no
other port, and it is at its own exactly if every scan since has found the port. -/
theorem backends_follow_scans {es fs : List Event} (hes : agent.Valid {} (es ++ fs)) :
    (agent.run {} es).timers + (agent.run {} es).watchers = 1 ∧
      (∀ location, (∃ backend, (agent.run {} es).m_backends.lookup location = some backend) ↔
        location ∈ listed es) ∧
      ∀ location other backend, (agent.run {} es).m_backends.lookup location = some backend →
        ((agent.run {} (es ++ fs)).m_backends.lookup other = some backend ↔
          other = location ∧
            ∀ ports, .scanned ports ∈ fs → location ∈ ports.map Port.systemLocation) := by
  obtain ⟨hfirst, hrest⟩ := (agent.along_append _ {} es fs).mp hes
  have hs := scanning_run .fresh hfirst
  refine ⟨hs.one, ?_, ?_⟩
  · intro location
    exact Option.isSome_iff_exists.symm.trans (holds_run_isSome hfirst location)
  · intro location other backend hheld
    rw [Reactive.run_append]
    constructor
    · intro hother
      have hlt := hs.table.kept.lt_next location backend hheld
      have hbefore := (later_run hs hrest).held_before other backend hlt hother
      have hsame : other = location := hs.table.kept.owner other location backend hbefore hheld
      exact ⟨hsame, (holds_run_iff hs hrest hheld).mp (hsame ▸ hother)⟩
    · intro ⟨hsame, hall⟩
      rw [hsame]
      exact (holds_run_iff hs hrest hheld).mpr hall

def pluggedIn : List Event :=
  [.scanned [⟨"ttyUSB0", true⟩], .probed 0 (.result (jadeInfo "A")), .scan]

def pluggedOut : List Event :=
  [.scanned [⟨"ttyUSB0", true⟩, ⟨"ttyUSB1", true⟩], .scan, .scanned [⟨"ttyUSB1", true⟩]]

theorem backends_follow_scans_pluggedOut :
    ¬ (agent.run {} (pluggedIn ++ pluggedOut)).m_backends.lookup "ttyUSB0" = some 0 := by
  have hes : agent.Valid {} (pluggedIn ++ pluggedOut) := by decide +kernel
  intro hheld
  have hfirst : (agent.run {} pluggedIn).m_backends.lookup "ttyUSB0" = some 0 := by decide +kernel
  have hall := (((backends_follow_scans hes).2.2 "ttyUSB0" "ttyUSB0" 0 hfirst).mp hheld).2
  have hlast := hall [⟨"ttyUSB1", true⟩] (by simp [pluggedOut])
  simp at hlast

end Agent
end GreenWallet.Jade.Discovery
