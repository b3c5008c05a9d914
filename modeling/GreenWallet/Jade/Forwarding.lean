import GreenWallet.Jade.Signing

/-!
# Answers that are forwarded

What an exchange has registered is a list of entries, the one registered last in front. Those
in front may forward to each other: an answer to the first of them runs down the list, takes
out every handler on its way with the proxy of its id, and comes out at the first handler that
does something else with it. Ids are drawn at random; here those of an exchange are distinct.
-/
namespace GreenWallet.Jade
open GreenWallet.Library
open Std (ExtTreeMap)

/-- The messages differ in the id at most. -/
def SameButId (msg msg' : Fields) : Prop :=
  ∀ key, key ≠ "id" → msg'.lookup key = msg.lookup key

theorem SameButId.refl (msg : Fields) : SameButId msg msg := fun _ _ => rfl

theorem SameButId.trans {msg msg' msg'' : Fields} (h : SameButId msg msg')
    (h' : SameButId msg' msg'') : SameButId msg msg'' :=
  fun key hkey => (h' key hkey).trans (h key hkey)

theorem sameButId_readdress (targetId : Int) (msg : Fields) :
    SameButId msg (JadeAPI.readdress targetId msg) := by
  intro key hkey
  have hinsert := Fields.lookup_insert_of_ne msg (.int targetId) hkey
  unfold JadeAPI.readdress
  split
  · split_ifs
    · rfl
    · exact hinsert
  · exact hinsert

/-- A table is no smaller than a list of its keys. -/
theorem length_le_size {V : Type} (table : ExtTreeMap Int V) {ids : List Int} (hnodup : ids.Nodup)
    (hids : ∀ id ∈ ids, table.contains id = true) : ids.length ≤ table.size := by
  induction ids generalizing table with
  | nil => exact Nat.zero_le _
  | cons id ids ih =>
      obtain ⟨hid, hnodup⟩ := List.nodup_cons.mp hnodup
      have hrest := ih (table.erase id) hnodup (by
        intro other hother
        rw [ExtTreeMap.contains_erase, hids other (List.mem_cons_of_mem _ hother), Bool.and_true,
          bne_iff_ne, ne_eq, Std.LawfulEqCmp.compare_eq_iff_eq]
        intro heq
        exact hid (heq ▸ hother))
      have hmem := hids id List.mem_cons_self
      rw [ExtTreeMap.size_erase, hmem, if_pos rfl] at hrest
      have hpos : table.size ≠ 0 := by
        intro hzero
        rw [ExtTreeMap.eq_empty_iff_size_eq_zero.mpr hzero, ExtTreeMap.contains_empty] at hmem
        cases hmem
      rw [List.length_cons]
      omega

namespace JadeAPI
variable {idgen : ℕ → Fin 90000} {api : JadeAPI}

/-! ## What the parts leave alone -/

@[simp] theorem send_requestProxy (msg : Request) :
    (api.send msg).requestProxy = api.requestProxy := by
  simp only [send]
  split_ifs <;> rfl

/-- Neither table is touched, no id drawn and no callback called. -/
structure SameTables (api api' : JadeAPI) : Prop where
  responseHandlers : api'.responseHandlers = api.responseHandlers
  requestProxy : api'.requestProxy = api.requestProxy
  drawn : api'.drawn = api.drawn
  calls : api'.calls = api.calls

theorem SameTables.refl (api : JadeAPI) : SameTables api api := ⟨rfl, rfl, rfl, rfl⟩

theorem SameTables.trans {api' api'' : JadeAPI} (h : SameTables api api')
    (h' : SameTables api' api'') : SameTables api api'' where
  responseHandlers := h'.responseHandlers.trans h.responseHandlers
  requestProxy := h'.requestProxy.trans h.requestProxy
  drawn := h'.drawn.trans h.drawn
  calls := h'.calls.trans h.calls

theorem sameTables_send (msg : Request) (api : JadeAPI) : SameTables api (api.send msg) :=
  ⟨send_responseHandlers msg, send_requestProxy msg, send_drawn msg, send_calls msg⟩

theorem sameTables_enqueue (msg : Request) : SameTables api (api.enqueue msg) := by
  unfold enqueue
  split_ifs
  · exact sameTables_send msg api
  · exact ⟨rfl, rfl, rfl, rfl⟩

theorem sameTables_drain (inflight : List Int) :
    SameTables api ({ api with msgInflight := inflight } : JadeAPI).drain := by
  unfold drain
  split_ifs
  · split
    · exact ⟨rfl, rfl, rfl, rfl⟩
    · next msg queue _ =>
        have hsend := sameTables_send msg { api with msgInflight := inflight, msgQueue := queue }
        exact ⟨hsend.responseHandlers, hsend.requestProxy, hsend.drawn, hsend.calls⟩
  · exact ⟨rfl, rfl, rfl, rfl⟩

theorem sameTables_put {out : Output} (hout : out.call = none) : SameTables api (api.put out) := by
  refine ⟨rfl, rfl, rfl, ?_⟩
  rw [calls, put, List.filterMap_append]
  simp [calls, hout]

theorem redraw_requestProxy (idgen : ℕ → Fin 90000) (tries : ℕ) (id : Int) (api : JadeAPI) :
    (redraw idgen tries id api).2.requestProxy = api.requestProxy := by
  induction tries generalizing id api with
  | zero => rfl
  | succ tries ih =>
      rw [redraw]
      split_ifs
      · exact ih _ _
      · rfl

theorem registerResponseHandler_requestProxy (idgen : ℕ → Fin 90000) (cb : Handler) (timeout : Int)
    (api : JadeAPI) :
    (api.registerResponseHandler idgen cb timeout).2.requestProxy = api.requestProxy := by
  have hredraw := redraw_requestProxy idgen 5 (api.getNewId idgen).1 (api.getNewId idgen).2
  simp only [registerResponseHandler]
  split_ifs
  · exact hredraw
  · exact hredraw

/-- The proxy of an id is stored for the new id too. -/
theorem handleHttpResponse_requestProxy (id : Int) (httpRequest : Fields) (httpResponse : Variant) :
    (api.handleHttpResponse idgen id httpRequest httpResponse).requestProxy =
      (api.requestProxy.insert id ((api.requestProxy[id]?).getD none)).insert
        (api.registerResponseHandler idgen (.forward id) 0).1
        ((api.requestProxy[id]?).getD none) := by
  simp only [handleHttpResponse, send_requestProxy, registerResponseHandler_requestProxy]

/-- The ids that are drawn depend on the handlers and the numbers drawn so far. -/
theorem redraw_congr (idgen : ℕ → Fin 90000) {api' : JadeAPI}
    (hhandlers : api'.responseHandlers = api.responseHandlers) (hdrawn : api'.drawn = api.drawn)
    (tries : ℕ) (id : Int) :
    (redraw idgen tries id api').1 = (redraw idgen tries id api).1 := by
  induction tries generalizing id api api' with
  | zero => rfl
  | succ tries ih =>
      rw [redraw, redraw, hhandlers]
      split_ifs
      · simp only [getNewId, hdrawn]
        apply ih
        · exact hhandlers
        · rfl
      · rfl

theorem SameTables.registered_id {api' : JadeAPI} (h : SameTables api api') (idgen : ℕ → Fin 90000)
    (cb : Handler) (timeout : Int) :
    (api'.registerResponseHandler idgen cb timeout).1 =
      (api.registerResponseHandler idgen cb timeout).1 := by
  simp only [registerResponseHandler, getNewId, h.drawn]
  apply redraw_congr idgen
  · exact h.responseHandlers
  · rfl

/-- The handlers of the ids are taken out, one after the other. -/
def takeAll (ids : List Int) (api : JadeAPI) : JadeAPI := ids.foldl (fun api id => api.take id) api

theorem takeAll_cons (id : Int) (ids : List Int) (api : JadeAPI) :
    api.takeAll (id :: ids) = (api.take id).takeAll ids := rfl

/-- What is taken is in neither table, and the rest is as it was. -/
theorem takeAll_tables (ids : List Int) (api : JadeAPI) (id : Int) :
    (api.takeAll ids).responseHandlers[id]? =
        (if id ∈ ids then none else api.responseHandlers[id]?) ∧
      (api.takeAll ids).requestProxy[id]? =
        (if id ∈ ids then none else api.requestProxy[id]?) := by
  induction ids generalizing api with
  | nil => simp [takeAll]
  | cons first ids ih =>
      rw [takeAll_cons, (ih (api.take first)).1, (ih (api.take first)).2]
      by_cases hmem : id ∈ ids
      · simp [hmem]
      · by_cases hfirst : id = first
        · simp [hfirst, take]
        · simp [hmem, hfirst, take, ExtTreeMap.getElem?_erase, Ne.symm hfirst]

@[simp] theorem takeAll_output (ids : List Int) (api : JadeAPI) :
    (api.takeAll ids).output = api.output := by
  induction ids generalizing api with
  | nil => rfl
  | cons first ids ih => exact ih (api.take first)

/-- Under a fresh id a handler is registered at the first try, whatever its timeout. -/
theorem registerResponseHandler_fresh (cb : Handler) (timeout : Int)
    (hfresh : api.responseHandlers.contains (drawnId idgen api.drawn) = false) :
    (api.registerResponseHandler idgen cb timeout).1 = drawnId idgen api.drawn ∧
      (api.registerResponseHandler idgen cb timeout).2.responseHandlers =
        api.responseHandlers.insert (drawnId idgen api.drawn) cb ∧
      (api.registerResponseHandler idgen cb timeout).2.drawn = api.drawn + 1 ∧
      (api.registerResponseHandler idgen cb timeout).2.calls = api.calls := by
  have hredraw : redraw idgen 5 (drawnId idgen api.drawn) { api with drawn := api.drawn + 1 } =
      (drawnId idgen api.drawn, { api with drawn := api.drawn + 1 }) := by
    simp [redraw, hfresh]
  simp only [registerResponseHandler, getNewId, hredraw]
  split_ifs <;> exact ⟨trivial, rfl, rfl, rfl⟩

theorem handleHttpResponse_fresh (id : Int) (httpRequest : Fields) (httpResponse : Variant)
    (hfresh : api.responseHandlers.contains (drawnId idgen api.drawn) = false) :
    (api.handleHttpResponse idgen id httpRequest httpResponse).responseHandlers =
        api.responseHandlers.insert (drawnId idgen api.drawn) (.forward id) ∧
      (api.handleHttpResponse idgen id httpRequest httpResponse).drawn = api.drawn + 1 ∧
      (api.handleHttpResponse idgen id httpRequest httpResponse).calls = api.calls := by
  obtain ⟨-, hhandlers, hdrawn, hcalls⟩ :=
    registerResponseHandler_fresh (.forward id) 0 hfresh
  simp only [handleHttpResponse, send_responseHandlers, send_drawn, send_calls]
  exact ⟨hhandlers, hdrawn, hcalls⟩

end JadeAPI

/-- The next ids are drawn once each, and no handler waits under them. -/
structure DistinctIds (idgen : ℕ → Fin 90000) (api₀ : JadeAPI) (count : ℕ) : Prop where
  unregistered : ∀ i < count,
    api₀.responseHandlers.contains (JadeAPI.drawnId idgen (api₀.drawn + i)) = false
  distinct : ∀ i j, i < j → j < count →
    JadeAPI.drawnId idgen (api₀.drawn + i) ≠ JadeAPI.drawnId idgen (api₀.drawn + j)

theorem distinctIds_counting {count : ℕ} (hcount : count ≤ 90000) :
    DistinctIds counting {} count := by
  refine ⟨by simp, ?_⟩
  intro i j hij hj
  simp only [JadeAPI.drawnId, counting]
  omega

/-- The entries of an exchange, and no others besides those it found. -/
structure Entered (idgen : ℕ → Fin 90000) (api₀ : JadeAPI) (entries : List (Int × Handler))
    (api : JadeAPI) : Prop where
  started : api₀.drawn ≤ api.drawn
  fromDraws : ∀ entry ∈ entries, ∃ i, api₀.drawn ≤ i ∧ i < api.drawn ∧
    entry.1 = JadeAPI.drawnId idgen i
  nodup : (entries.map Prod.fst).Nodup
  known : ∀ j, api.responseHandlers.contains j = true →
    j ∈ entries.map Prod.fst ∨ api₀.responseHandlers.contains j = true
  registered : ∀ entry ∈ entries, api.responseHandlers[entry.1]? = some entry.2

/-- Entries that forward one to the next, and the last one to `target`. -/
def forwardEntries (target : Int) : List Int → List (Int × Handler)
  | [] => []
  | id :: older => (id, .forward (older.headD target)) :: forwardEntries target older

theorem map_forwardEntries (target : Int) (ids : List Int) :
    (forwardEntries target ids).map Prod.fst = ids := by
  induction ids with
  | nil => rfl
  | cons id older ih => rw [forwardEntries, List.map_cons, ih]

theorem entered_nil (idgen : ℕ → Fin 90000) (api₀ : JadeAPI) : Entered idgen api₀ [] api₀ where
  started := Nat.le_refl _
  fromDraws _ hentry := by cases hentry
  nodup := List.nodup_nil
  known _ hj := .inr hj
  registered _ hentry := by cases hentry

namespace Entered
variable {idgen : ℕ → Fin 90000} {api₀ api api' : JadeAPI} {count : ℕ}
variable {entries : List (Int × Handler)} {entry : Int × Handler}

theorem congr (h : Entered idgen api₀ entries api) (hsame : JadeAPI.SameTables api api') :
    Entered idgen api₀ entries api' where
  started := hsame.drawn ▸ h.started
  fromDraws := hsame.drawn ▸ h.fromDraws
  nodup := h.nodup
  known := hsame.responseHandlers ▸ h.known
  registered := hsame.responseHandlers ▸ h.registered

theorem readable (h : Entered idgen api₀ entries api) (hentry : entry ∈ entries) :
    textToInt (toString entry.1) = entry.1 := by
  obtain ⟨i, -, -, hid⟩ := h.fromDraws entry hentry
  rw [hid]
  exact JadeAPI.textToInt_drawnId idgen i

theorem ne_zero (h : Entered idgen api₀ entries api) (hentry : entry ∈ entries) : entry.1 ≠ 0 := by
  obtain ⟨i, -, -, hid⟩ := h.fromDraws entry hentry
  rw [hid]
  exact JadeAPI.drawnId_ne_zero idgen i

theorem length_le (h : Entered idgen api₀ entries api) :
    entries.length ≤ api.responseHandlers.size := by
  rw [← List.length_map (f := Prod.fst)]
  apply length_le_size _ h.nodup
  intro id hid
  obtain ⟨entry, hentry, rfl⟩ := List.mem_map.mp hid
  rw [ExtTreeMap.contains_eq_isSome_getElem?, h.registered entry hentry]
  rfl

/-- No handler waits under an id that is new to the exchange and to the API it found. -/
theorem unregistered (h : Entered idgen api₀ entries api) {id : Int}
    (hnew : id ∉ entries.map Prod.fst) (hstart : api₀.responseHandlers.contains id = false) :
    api.responseHandlers.contains id = false := by
  by_contra hcontains
  rw [Bool.not_eq_false] at hcontains
  rcases h.known id hcontains with hmem | hfound
  · exact hnew hmem
  · rw [hstart] at hfound
    cases hfound

/-- The next id to be drawn is new to the exchange, and to the API. -/
theorem fresh (hids : DistinctIds idgen api₀ count) (h : Entered idgen api₀ entries api)
    (hcount : api.drawn < api₀.drawn + count) :
    JadeAPI.drawnId idgen api.drawn ∉ entries.map Prod.fst ∧
      api.responseHandlers.contains (JadeAPI.drawnId idgen api.drawn) = false := by
  obtain ⟨n, hn⟩ := Nat.exists_eq_add_of_le h.started
  have hlt : n < count := by omega
  have hnew : JadeAPI.drawnId idgen api.drawn ∉ entries.map Prod.fst := by
    intro hmem
    obtain ⟨entry, hentry, hid⟩ := List.mem_map.mp hmem
    obtain ⟨i, hstart, hi, hdraw⟩ := h.fromDraws entry hentry
    obtain ⟨m, rfl⟩ := Nat.exists_eq_add_of_le hstart
    apply hids.distinct m n (by omega) hlt
    rw [← hdraw, hid, hn]
  refine ⟨hnew, h.unregistered hnew ?_⟩
  rw [hn]
  exact hids.unregistered n hlt

/-- A handler is registered. -/
theorem push (h : Entered idgen api₀ entries api)
    (hnew : JadeAPI.drawnId idgen api.drawn ∉ entries.map Prod.fst) {handler : Handler}
    (hhandlers : api'.responseHandlers =
      api.responseHandlers.insert (JadeAPI.drawnId idgen api.drawn) handler)
    (hdrawn : api'.drawn = api.drawn + 1) :
    Entered idgen api₀ ((JadeAPI.drawnId idgen api.drawn, handler) :: entries) api' := by
  refine ⟨?_, ?_, ?_, ?_, ?_⟩
  · rw [hdrawn]
    exact Nat.le_succ_of_le h.started
  · intro entry hentry
    rw [hdrawn]
    rcases List.mem_cons.mp hentry with rfl | hentry
    · exact ⟨api.drawn, h.started, Nat.lt_succ_self _, rfl⟩
    · obtain ⟨i, hstart, hi, hid⟩ := h.fromDraws entry hentry
      exact ⟨i, hstart, Nat.lt_succ_of_lt hi, hid⟩
  · exact List.nodup_cons.mpr ⟨hnew, h.nodup⟩
  · intro j hj
    rw [hhandlers, ExtTreeMap.contains_insert, Bool.or_eq_true, beq_iff_eq,
      Std.LawfulEqCmp.compare_eq_iff_eq] at hj
    rcases hj with rfl | hj
    · exact .inl List.mem_cons_self
    · exact (h.known j hj).imp_left (List.mem_cons_of_mem _)
  · intro entry hentry
    rw [hhandlers, ExtTreeMap.getElem?_insert]
    rcases List.mem_cons.mp hentry with rfl | hentry
    · rw [if_pos (by rw [Std.LawfulEqCmp.compare_eq_iff_eq])]
    · rw [if_neg]
      · exact h.registered entry hentry
      · intro heq
        rw [Std.LawfulEqCmp.compare_eq_iff_eq] at heq
        exact hnew (heq ▸ List.mem_map_of_mem hentry)

/-- A handler is registered under a new id, and nothing else changes. -/
theorem register (h : Entered idgen api₀ entries api)
    (hnew : JadeAPI.drawnId idgen api.drawn ∉ entries.map Prod.fst)
    (hstart : api₀.responseHandlers.contains (JadeAPI.drawnId idgen api.drawn) = false)
    (handler : Handler) :
    ∃ registered : JadeAPI,
      api.registerResponseHandler idgen handler 0 =
        (JadeAPI.drawnId idgen api.drawn, registered) ∧
      Entered idgen api₀ ((JadeAPI.drawnId idgen api.drawn, handler) :: entries) registered ∧
      registered.drawn = api.drawn + 1 ∧ registered.msgQueue = api.msgQueue ∧
      registered.msgInflight = api.msgInflight ∧ registered.output = api.output :=
  ⟨_, JadeAPI.registerResponseHandler_of_fresh handler (h.unregistered hnew hstart),
    h.push hnew rfl rfl, rfl, rfl, rfl, rfl⟩

/-- The handler registered last is taken out. -/
theorem pop (h : Entered idgen api₀ (entry :: entries) api) :
    Entered idgen api₀ entries (api.take entry.1) := by
  obtain ⟨hnew, hnodup⟩ := List.nodup_cons.mp h.nodup
  refine ⟨h.started, ?_, hnodup, ?_, ?_⟩
  · intro other hother
    exact h.fromDraws other (List.mem_cons_of_mem _ hother)
  · intro j hj
    rw [JadeAPI.take, ExtTreeMap.contains_erase, Bool.and_eq_true, bne_iff_ne, ne_eq,
      Std.LawfulEqCmp.compare_eq_iff_eq] at hj
    rcases h.known j hj.2 with hmem | hstart
    · rw [List.map_cons, List.mem_cons] at hmem
      exact .inl (hmem.resolve_left fun heq => hj.1 heq.symm)
    · exact .inr hstart
  · intro other hother
    rw [JadeAPI.take, ExtTreeMap.getElem?_erase, if_neg]
    · exact h.registered other (List.mem_cons_of_mem _ hother)
    · intro heq
      rw [Std.LawfulEqCmp.compare_eq_iff_eq] at heq
      exact hnew (heq ▸ List.mem_map_of_mem hother)

/-- An answer to the latest id runs down the forwards and comes out under `target`. -/
theorem callResponseHandler_of_forwards {target : Int} {handler : Handler} {ids : List Int}
    (h : Entered idgen api₀ (forwardEntries target ids ++ (target, handler) :: entries) api)
    (rounds : ℕ) {msg : Fields} (hid : textToInt (msg.value "id").toText = ids.headD target) :
    ∃ msg', textToInt (msg'.value "id").toText = target ∧ SameButId msg msg' ∧
      Entered idgen api₀ ((target, handler) :: entries) (api.takeAll ids) ∧
      JadeAPI.callResponseHandler idgen (ids.length + rounds) msg api =
        JadeAPI.callResponseHandler idgen rounds msg' (api.takeAll ids) := by
  induction ids generalizing api msg with
  | nil => exact ⟨msg, hid, .refl msg, h, by rw [List.length_nil, Nat.zero_add]; rfl⟩
  | cons id older ih =>
      have hfirst := h.registered (id, .forward (older.headD target)) List.mem_cons_self
      have hnext : ∃ entry ∈ forwardEntries target older ++ (target, handler) :: entries,
          entry.1 = older.headD target := by
        cases older with
        | nil => exact ⟨_, List.mem_cons_self, rfl⟩
        | cons => exact ⟨_, List.mem_cons_self, rfl⟩
      obtain ⟨entry, hentry, hread⟩ := hnext
      have htext : textToInt
          ((JadeAPI.readdress (older.headD target) msg).value "id").toText =
            older.headD target := by
        rw [JadeAPI.readdress_id, ← hread]
        exact h.readable (List.mem_cons_of_mem _ hentry)
      obtain ⟨msg', htarget, hsame, hrest, hcalled⟩ := ih h.pop htext
      refine ⟨msg', htarget, (sameButId_readdress _ msg).trans hsame, hrest, ?_⟩
      rw [JadeAPI.takeAll_cons, ← hcalled, List.length_cons, Nat.add_right_comm]
      have hid' : textToInt (msg.value "id").toText = id := hid
      simp only [JadeAPI.callResponseHandler, hid', hfirst, JadeAPI.runHandler, JadeAPI.take]

end Entered
end GreenWallet.Jade
