import GreenWallet.Jade.Ports

/-!
# The devices at the ports

What the manager shows of a device is set when its backend answers: that it is connected, and the
port where it is. Neither is kept up with the scans by itself, but both go with the backend.
-/
namespace GreenWallet.Jade.Discovery
open GreenWallet.Library
namespace Agent

/-- A device is connected through a backend only, and is at the port of its backend. -/
structure Settled (m_backends : List (String × ℕ)) (device : JadeDevice) : Prop where
  connected : device.connected = true → device.api.isSome
  located : ∀ backend, device.api = some backend →
    m_backends.lookup device.systemLocation = some backend

def AllSettled (m_backends : List (String × ℕ)) (s : Agent) : Prop :=
  ∀ device ∈ s.devices, Settled m_backends device

theorem AllSettled.modify {m : List (String × ℕ)} {s : Agent} (hs : AllSettled m s) {i : ℕ}
    {f : JadeDevice → JadeDevice}
    (h : ∀ device, s.devices[i]? = some device → Settled m device → Settled m (f device)) :
    AllSettled m (s.modify i f) := by
  intro device hdevice
  obtain ⟨j, hj⟩ := List.getElem?_of_mem hdevice
  rw [Agent.modify, List.getElem?_modify] at hj
  obtain ⟨before, hbefore, hafter⟩ := Option.map_eq_some_iff.mp hj
  have hsettled := hs before (List.mem_of_getElem? hbefore)
  split_ifs at hafter with hij
  · rw [← hafter]
    exact h before (hij ▸ hbefore) hsettled
  · exact hafter ▸ hsettled

theorem Settled.closed {m : List (String × ℕ)} {device : JadeDevice} (h : Settled m device) :
    Settled m { device with connected := false } where
  connected := nofun
  located := h.located

theorem AllSettled.disconnected {m : List (String × ℕ)} {s : Agent} (hs : AllSettled m s)
    (backend : ℕ) : AllSettled m (s.disconnected backend) := by
  unfold Agent.disconnected
  split
  · exact hs
  · exact hs.modify fun _ _ h => h.closed

theorem AllSettled.probe {m : List (String × ℕ)} {s : Agent} (hs : AllSettled m s)
    (backend : ℕ) (opens : Bool) : AllSettled m (s.probe backend opens) := by
  unfold Agent.probe connectDevice
  split_ifs
  · exact hs
  · exact hs
  · exact hs
  · exact hs.disconnected backend

theorem AllSettled.update {m : List (String × ℕ)} {s : Agent} (hs : AllSettled m s)
    (backend : ℕ) (busy : Bool) : AllSettled m (s.update backend busy) := by
  unfold Agent.update
  split
  · exact hs
  · split
    · exact hs
    · split_ifs
      · exact hs
      · exact hs.modify fun _ _ h => ⟨h.connected, h.located⟩
      · exact hs.modify fun _ _ h => ⟨h.connected, h.located⟩

theorem AllSettled.pinged {m : List (String × ℕ)} {s : Agent} (hs : AllSettled m s)
    (backend device : ℕ) (status : Option ℤ) : AllSettled m (s.pinged backend device status) := by
  unfold Agent.pinged
  split
  · exact hs.modify fun _ _ h => ⟨h.connected, h.located⟩
  · split
    · exact hs
    · exact hs.modify fun _ _ h => ⟨h.connected, h.located⟩

theorem AllSettled.versioned {m : List (String × ℕ)} {s : Agent} (hs : AllSettled m s)
    (backend : ℕ) (reply : Reply) : AllSettled m (s.versioned backend reply) := by
  unfold Agent.versioned
  split
  · exact hs
  · rename_i index hindex
    cases reply with
    | error message => exact hs.modify fun _ _ h => ⟨nofun, h.located⟩
    | result info =>
        refine hs.modify ?_
        intro device hdevice h
        obtain ⟨x, hx, hapi⟩ := deviceFromBackend_eq_some hindex
        rw [getElem?_idents, hdevice] at hx
        rw [← Option.some.inj hx] at hapi
        constructor
        · intro _
          exact Option.isSome_iff_exists.mpr ⟨backend, hapi⟩
        · exact h.located
    | nothing => exact hs

theorem lookup_systemLocation {s : Agent} (hs : s.Table) {backend : ℕ}
    (hbackend : backend ∈ s.backends) :
    s.m_backends.lookup (s.systemLocation backend) = some backend := by
  obtain ⟨entry, hentry, hsame⟩ := List.mem_map.mp hbackend
  have hfound : ∃ found, s.m_backends.find? (fun entry => entry.2 = backend) = some found :=
    Option.isSome_iff_exists.mp (List.find?_isSome.mpr ⟨entry, hentry, decide_eq_true hsame⟩)
  obtain ⟨found, hfound⟩ := hfound
  have hlocation : s.systemLocation backend = found.1 := by
    unfold systemLocation
    rw [hfound]
    rfl
  have hvalue : found.2 = backend := by
    have hdecided := List.find?_some hfound
    exact of_decide_eq_true hdecided
  rw [hlocation]
  exact hs.holds_iff.mpr (hvalue ▸ List.mem_of_find?_eq_some hfound)

theorem AllSettled.probed {s : Agent} (hs : AllSettled s.m_backends s) (htable : s.Table)
    {backend : ℕ} (hbackend : backend ∈ s.backends) (reply : Reply) :
    AllSettled s.m_backends (s.probed backend reply) := by
  cases reply with
  | error message =>
      unfold Agent.probed
      dsimp only
      split_ifs <;> exact hs
  | result info =>
      have hidentified : AllSettled s.m_backends (s.identify info).1 := by
        unfold identify
        split
        · exact hs
        · intro device hdevice
          cases List.mem_append.mp hdevice with
          | inl hold => exact hs device hold
          | inr hnew =>
              rw [List.mem_singleton.mp hnew]
              exact ⟨nofun, nofun⟩
      refine AllSettled.modify (s := (s.identify info).1) hidentified ?_
      intro device _ _
      constructor
      · exact fun _ => rfl
      · intro other hother
        rw [← Option.some.inj hother]
        exact lookup_systemLocation htable hbackend
  | nothing => exact hs

theorem AllSettled.found {m : List (String × ℕ)} {s : Agent} (hs : AllSettled m s) (port : Port) :
    AllSettled m (s.found port) := by
  unfold Agent.found
  split
  · exact AllSettled.probe (s := { s with
      m_backends := s.m_backends ++ [(port.systemLocation, s.made)]
      made := s.made + 1 }) hs s.made port.opens
  · rename_i backend _
    split_ifs
    · exact hs
    · exact hs.probe backend port.opens

theorem AllSettled.remove {m : List (String × ℕ)} {s : Agent} (hs : AllSettled m s) (backend : ℕ) :
    AllSettled m (s.remove backend) := by
  have hdetached : AllSettled m (s.detach backend) := by
    unfold detach
    split
    · exact hs
    · exact hs.modify fun _ _ _ => ⟨nofun, nofun⟩
  exact hdetached

theorem AllSettled.foldl {m : List (String × ℕ)} {α : Type} {body : Agent → α → Agent}
    (h : ∀ s x, AllSettled m s → AllSettled m (body s x)) (xs : List α) {s : Agent}
    (hs : AllSettled m s) : AllSettled m (xs.foldl body s) := by
  induction xs generalizing s with
  | nil => exact hs
  | cons x xs ih => exact ih (h s x hs)

theorem AllSettled.scanned {s : Agent} (hs : AllSettled s.m_backends s) (htable : s.Table)
    (ports : List Port) (hgood : (s.scanned ports).Good) :
    AllSettled (s.scanned ports).m_backends (s.scanned ports) := by
  have hfound := htable.afterFound ports
  have hkept : AllSettled (s.afterFound ports).m_backends s := by
    intro device hdevice
    have hsettled := hs device hdevice
    exact ⟨hsettled.connected, fun backend hapi =>
      hfound.keeps device.systemLocation backend (hsettled.located backend hapi)⟩
  have hafter : AllSettled (s.afterFound ports).m_backends (s.afterFound ports) :=
    AllSettled.foldl (s := { s with timers := s.timers + 1, watchers := s.watchers - 1 })
      (fun _ port h => h.found port) ports hkept
  have hremoved : AllSettled (s.afterFound ports).m_backends (s.scanned ports) :=
    AllSettled.foldl (fun _ backend h => h.remove backend) _ hafter
  intro device hdevice
  have hsettled := hremoved device hdevice
  refine ⟨hsettled.connected, ?_⟩
  intro backend hapi
  obtain ⟨i, hi⟩ := List.getElem?_of_mem hdevice
  have hident : (s.scanned ports).idents[i]? = some device.ident := by
    rw [getElem?_idents, hi]
    rfl
  have hpresent := hgood.identified.present i device.ident backend hident hapi
  obtain ⟨entry, hentry, hsame⟩ := List.mem_map.mp hpresent
  have hmem := (mem_m_backends_scanned htable ports entry.1 entry.2).mp hentry
  rw [hsame] at hmem
  have hlocation : device.systemLocation = entry.1 :=
    hfound.table.kept.owner device.systemLocation entry.1 backend (hsettled.located backend hapi)
      hmem.2
  rw [hlocation]
  exact (htable.scanned ports).table.holds_iff.mpr (hsame ▸ hentry)

/-- What holds of the devices where none is swapped. -/
structure AtPorts (s : Agent) : Prop where
  good : s.Good
  scanning : s.Scanning
  settled : AllSettled s.m_backends s

theorem settled_next {s : Agent} (hs : s.AtPorts) {e : Event} (he : s.enabled e)
    (hgood : (s.next e).Good) : AllSettled (s.next e).m_backends (s.next e) := by
  have hsettled := hs.settled
  by_cases hscanned : ∃ ports, e = .scanned ports
  · obtain ⟨ports, rfl⟩ := hscanned
    exact hsettled.scanned hs.scanning.table ports hgood
  have hsame : (s.next e).m_backends = s.m_backends := by
    by_cases hscan : e = .scan
    · subst hscan
      exact (quiet_scan 0 s).m_backends
    · have hscans := scans_next s hscan fun ports h => hscanned ⟨ports, h⟩
      exact congrArg Scans.m_backends hscans
  rw [hsame]
  cases e with
  | scan =>
      have hdevices : s.scan.devices = s.devices := by
        unfold scan
        split_ifs <;> rfl
      intro device hdevice
      have hdevice : device ∈ s.scan.devices := hdevice
      exact hsettled device (hdevices ▸ hdevice)
  | scanned ports => exact absurd ⟨ports, rfl⟩ hscanned
  | disconnected backend =>
      exact AllSettled.disconnected (s := { s with
        isConnected := Function.update s.isConnected backend false }) hsettled backend
  | setLocked backend locked => exact hsettled
  | connected backend opens =>
      exact AllSettled.probe (s := s.answered (.connected backend)) hsettled backend opens
  | probed backend reply =>
      have hbackend := hs.good.present.pending _ he
      exact AllSettled.probed (s := s.answered (.probe backend)) hsettled
        ⟨hs.scanning.table.nodup, hs.scanning.table.kept⟩ hbackend reply
  | retry backend opens =>
      exact AllSettled.probe (s := s.answered (.retry backend)) hsettled backend opens
  | update backend busy =>
      exact AllSettled.update (s := s.answered (.update backend)) hsettled backend busy
  | pinged backend device status =>
      exact AllSettled.pinged (s := s.answered (.ping backend device)) hsettled backend device status
  | versioned backend reply =>
      exact AllSettled.versioned (s := s.answered (.version backend)) hsettled backend reply

theorem AtPorts.next {s : Agent} (hs : s.AtPorts) {e : Event} (he : s.enabled e)
    (hswaps : ¬ Swaps s e) : (s.next e).AtPorts := by
  have hgood := (good_next hs.good he hswaps).1
  exact ⟨hgood, (hs.scanning.next he).1, settled_next hs he hgood⟩

theorem AtPorts.fresh : AtPorts {} := ⟨.fresh, .fresh, nofun⟩

/-- **A connected device is plugged in.** Where no backend of a device answers with the version
info of another, a device that is connected has a backend, and the port where the device is said
to be has been found by the last scan and is the port of that backend and of no other device. -/
theorem connected_device_listed {es : List Event} (hes : agent.Valid {} es)
    (hswaps : agent.Along (fun s e => ¬ Swaps s e) {} es) {device : JadeDevice} {i : ℕ}
    (hdevice : (agent.run {} es).devices[i]? = some device) (hconnected : device.connected = true) :
    device.systemLocation ∈ listed es ∧
      ∃ backend, device.api = some backend ∧
        (agent.run {} es).m_backends.lookup device.systemLocation = some backend ∧
        ∀ (j : ℕ) (other : JadeDevice), (agent.run {} es).devices[j]? = some other →
          other.connected = true → other.systemLocation = device.systemLocation → j = i := by
  have hrun : agent.Along (fun s e => agent.enabled s e ∧ ¬ Swaps s e) {} es := by
    apply Reactive.along_of_at
    intro fs e gs hsplit
    subst hsplit
    exact ⟨hes.at fs, hswaps.at fs⟩
  have hs : (agent.run {} es).AtPorts :=
    Reactive.run_invariant (I := AtPorts) (fun _ _ hs he => hs.next he.1.2 he.2) .fresh hrun
  have hsettled := hs.settled device (List.mem_of_getElem? hdevice)
  obtain ⟨backend, hapi⟩ := Option.isSome_iff_exists.mp (hsettled.connected hconnected)
  have hheld := hsettled.located backend hapi
  refine ⟨(holds_run_isSome hes _).mp (Option.isSome_iff_exists.mpr ⟨backend, hheld⟩), backend, hapi,
    hheld, ?_⟩
  intro j other hother hotherConnected hlocation
  have hotherSettled := hs.settled other (List.mem_of_getElem? hother)
  obtain ⟨otherBackend, hotherApi⟩ := Option.isSome_iff_exists.mp
    (hotherSettled.connected hotherConnected)
  have hotherHeld := hotherSettled.located otherBackend hotherApi
  rw [hlocation, hheld] at hotherHeld
  rw [← Option.some.inj hotherHeld] at hotherApi
  have hident := getElem?_idents (agent.run {} es)
  exact hs.good.identified.api j i other.ident device.ident backend
    (by rw [hident, hother]; rfl) (by rw [hident, hdevice]; rfl) hotherApi hapi

def moved : List Event :=
  [.scanned [⟨"ttyUSB0", true⟩], .probed 0 (.result (jadeInfo "A")), .scan,
    .scanned [⟨"ttyUSB0", true⟩, ⟨"ttyUSB1", true⟩], .probed 1 (.result (jadeInfo "A")), .scan]

/-- The Jade of the run has moved to the other port. -/
theorem connected_device_listed_moved :
    ∃ device, (agent.run {} moved).devices[0]? = some device ∧ device.systemLocation ∈ listed moved := by
  have hes : agent.Valid {} moved := by decide +kernel
  have hswaps : agent.Along (fun s e => ¬ Swaps s e) {} moved := by decide +kernel
  have hdevice : (agent.run {} moved).devices[0]? =
      some ⟨some 1, jadeInfo "A", true, 0, "ttyUSB1"⟩ := by decide +kernel
  exact ⟨_, hdevice, (connected_device_listed hes hswaps hdevice rfl).1⟩

end Agent
end GreenWallet.Jade.Discovery
