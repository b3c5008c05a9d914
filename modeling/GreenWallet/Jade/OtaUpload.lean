import GreenWallet.Jade.Ota

/-!
# What an upload guarantees

If the device agrees to every message, it has been sent the whole image in chunks, and the
message that completes the upload behind them. If it does not, the caller hears of it, once, and
no more chunks are sent.
-/
namespace GreenWallet.Jade
open GreenWallet.Library

namespace Upload

section
variable (sha256 : List UInt8 → List UInt8) (fromHex : String → List UInt8) (upload : Upload)

/-- The chunks of the image. -/
def parts : List (List UInt8) := Chunks.chunks upload.chunkSize.toNat upload.fwcmp

/-- Where the chunks begin, and the length of the image. -/
def counts : List ℕ := Chunks.offsets upload.chunkSize.toNat upload.fwcmp.length

/-- The messages of a whole upload, in order. -/
def script : List (String × Option Variant) :=
  (upload.method, some (.map (upload.params sha256 fromHex))) ::
    (upload.parts.map (fun part => ("ota_data", some (.bytes part))) ++ [("ota_complete", none)])

/-- Where the chunk with a number begins. -/
def position (k : ℕ) : ℕ := Chunks.offset upload.chunkSize.toNat upload.fwcmp.length k

end

section
variable {idgen : ℕ → Fin 90000} {sha256 : List UInt8 → List UInt8}
variable {fromHex : String → List UInt8} {api₀ api : JadeAPI} {upload : Upload} {k : ℕ}
variable {tmpId : Int} {forwards : List Int} {msg : Fields} {rs : List Fields}

theorem length_parts (upload : Upload) : upload.parts.length =
    Chunks.count upload.chunkSize.toNat upload.fwcmp.length := Chunks.length_chunks

theorem length_counts (upload : Upload) : upload.counts.length = upload.parts.length + 1 := by
  rw [counts, length_parts, Chunks.offsets, List.length_map, List.length_range]

theorem length_script (upload : Upload) :
    (upload.script sha256 fromHex).length = upload.parts.length + 2 := by
  simp [script]

theorem position_lt (hchunk : 1 ≤ upload.chunkSize) (hk : k < upload.parts.length) :
    upload.position k < upload.fwcmp.length ∧ upload.position k = k * upload.chunkSize.toNat := by
  rw [length_parts, Chunks.lt_count (by omega)] at hk
  have hoffset := Chunks.offset_of_lt hk
  rw [position, hoffset]
  exact ⟨hk, rfl⟩

theorem position_last (hchunk : 1 ≤ upload.chunkSize) :
    upload.position upload.parts.length = upload.fwcmp.length := by
  rw [position, length_parts]
  exact Chunks.offset_count (by omega) _

/-- A chunk reaches from one position to the next. -/
theorem position_succ (hchunk : 1 ≤ upload.chunkSize) (hk : k < upload.parts.length) :
    (upload.position k : Int) + upload.nextChunkLen (upload.position k) =
      upload.position (k + 1) := by
  obtain ⟨hlt, hpos⟩ := position_lt hchunk hk
  have hnext : upload.position (k + 1) =
      min (k * upload.chunkSize.toNat + upload.chunkSize.toNat) upload.fwcmp.length := by
    rw [← Nat.succ_mul]
    rfl
  rw [hnext, nextChunkLen]
  split_ifs <;> omega

/-- The message of a chunk has the part of the image. -/
theorem chunkRequest_body (hchunk : 1 ≤ upload.chunkSize) (hk : k < upload.parts.length)
    (tmpId : Int) :
    (upload.chunkRequest (upload.position k) tmpId).body =
      ("ota_data", some (.bytes (Chunks.chunk upload.chunkSize.toNat upload.fwcmp k))) := by
  obtain ⟨hlt, hpos⟩ := position_lt hchunk hk
  have hmid : mid upload.fwcmp (upload.position k) (upload.nextChunkLen (upload.position k)) =
      Chunks.chunk upload.chunkSize.toNat upload.fwcmp k := by
    have hdrop : ((upload.position k : ℕ) : Int).toNat = k * upload.chunkSize.toNat := by omega
    rw [mid, if_neg (by omega), if_neg (by omega), hdrop, Chunks.chunk, nextChunkLen]
    split_ifs with hfull hcut hcut
    · omega
    · rfl
    · rw [List.take_of_length_le]
      rw [List.length_drop]
      omega
    · rw [List.take_of_length_le, List.take_of_length_le]
      · rw [List.length_drop]
        omega
      · rw [List.length_drop]
        omega
  rw [chunkRequest, hmid]
  rfl

/-- How far the upload is after the answers so far, if they are all true. -/
inductive Stage (idgen : ℕ → Fin 90000) (api₀ : JadeAPI) (upload : Upload) : ℕ → JadeAPI → Prop
  | uploading {k : ℕ} {tmpId : Int} {api : JadeAPI} :
      k ≤ upload.parts.length → api.drawn ≤ api₀.drawn + 2 + k →
      Uploading idgen api₀ upload (upload.position k) tmpId [] api → Stage idgen api₀ upload k api
  | finishing {api : JadeAPI} : Finishing idgen api₀ upload api →
      Stage idgen api₀ upload (upload.parts.length + 1) api
  | ended {answer : Fields} {api : JadeAPI} : Over idgen api₀ upload answer api →
      api.sentRequests.getLast? = some (otaComplete (exposedId idgen api₀)) →
      Stage idgen api₀ upload (upload.parts.length + 2) api

/-- What has been sent and reported after the answers so far, if they are all true. -/
structure Agreed (idgen : ℕ → Fin 90000) (sha256 : List UInt8 → List UInt8)
    (fromHex : String → List UInt8) (api₀ : JadeAPI) (upload : Upload) (k : ℕ) (api : JadeAPI) :
    Prop where
  stage : Stage idgen api₀ upload k api
  sent : api.sentRequests.map Request.body = (upload.script sha256 fromHex).take (k + 1)
  progressed : api.progressed =
    (upload.counts.take k).flatMap fun count : ℕ => upload.report (exposedId idgen api₀) count

theorem script_chunk (hk : k < upload.parts.length) :
    (upload.script sha256 fromHex)[k + 1]? =
      some ("ota_data", some (.bytes (Chunks.chunk upload.chunkSize.toNat upload.fwcmp k))) := by
  have hpart : upload.parts[k]? =
      some (Chunks.chunk upload.chunkSize.toNat upload.fwcmp k) := by
    rw [length_parts] at hk
    simp [parts, Chunks.chunks, hk]
  rw [script, List.getElem?_cons_succ, List.getElem?_append_left (by simpa using hk),
    List.getElem?_map, hpart]
  rfl

theorem script_complete :
    (upload.script sha256 fromHex)[upload.parts.length + 1]? = some ("ota_complete", none) := by
  simp [script]

theorem counts_get (hk : k ≤ upload.parts.length) :
    upload.counts[k]? = some (upload.position k) := by
  rw [length_parts, ← Nat.lt_succ_iff] at hk
  simp [counts, Chunks.offsets, hk, position]

/-- What one more message adds. -/
theorem Agreed.push (h : Agreed idgen sha256 fromHex api₀ upload k api) {api' : JadeAPI}
    {request : Request} (hk : k ≤ upload.parts.length)
    (hsent : Sent upload (exposedId idgen api₀) (upload.position k) request api api')
    (hbody : (upload.script sha256 fromHex)[k + 1]? = some request.body)
    (hstage : Stage idgen api₀ upload (k + 1) api') :
    Agreed idgen sha256 fromHex api₀ upload (k + 1) api' where
  stage := hstage
  sent := by
    have hnext := List.take_add_one (l := upload.script sha256 fromHex) (i := k + 1)
    rw [hbody] at hnext
    rw [hsent.sent, List.map_append, h.sent, hnext]
    rfl
  progressed := by
    rw [hsent.progressed, h.progressed, List.take_add_one, counts_get hk, List.flatMap_append]
    simp

/-- An answer that is true takes the upload a step further. -/
theorem Agreed.next (hchunk : 1 ≤ upload.chunkSize) {count : ℕ}
    (hids : DistinctIds idgen api₀ count) (hcount : k + 3 ≤ count)
    (h : Agreed idgen sha256 fromHex api₀ upload k api) (hmsg : (uploads idgen).enabled api msg)
    (htruthy : truthy msg = true) :
    Agreed idgen sha256 fromHex api₀ upload (k + 1) (api.processResponseMessage idgen msg) := by
  cases h.stage with
  | @uploading _ tmpId _ hk hdrawn huploading =>
      by_cases hlast : k = upload.parts.length
      · have hpos : ¬ ((upload.position k : ℕ) : Int) < upload.fwcmp.length := by
          rw [hlast, position_last hchunk]
          exact Int.lt_irrefl _
        obtain ⟨hfinishing, hsent⟩ := huploading.next_complete hmsg.1 htruthy hpos
        apply h.push hk hsent
        · rw [hlast]
          exact script_complete
        · rw [hlast]
          exact .finishing hfinishing
      · have hlt : k < upload.parts.length := by omega
        have hpos := (position_lt hchunk hlt).1
        have hnew : NewId idgen api₀ api := newId_of_distinctIds hids huploading.drawn (by omega)
        obtain ⟨hnext, hsent⟩ := huploading.next_chunk hmsg.1 htruthy hnew (by omega)
        rw [position_succ hchunk hlt] at hnext
        apply h.push hk hsent
        · rw [script_chunk hlt, chunkRequest_body hchunk hlt]
        · have hmore := hsent.drawn
          exact .uploading hlt (by omega) hnext
  | finishing hfinishing =>
      obtain ⟨hover, hsent, hprogressed⟩ :=
        hfinishing.next hmsg.1 (not_wantsHttpRequest_of_truthy htruthy)
      refine ⟨.ended hover (hsent ▸ hfinishing.latest), ?_, ?_⟩
      · rw [hsent, h.sent, List.take_of_length_le, List.take_of_length_le]
        · rw [length_script]
          omega
        · exact Nat.le_of_eq (length_script upload)
      · rw [hprogressed, h.progressed, List.take_of_length_le, List.take_of_length_le]
        · rw [length_counts]
          omega
        · exact Nat.le_of_eq (length_counts upload)
  | ended hover hlatest =>
      have hinflight := hmsg.2
      rw [hover.inflight] at hinflight
      cases hinflight

/-- The initiating message is sent. -/
theorem agreed_start (sha256 : List UInt8 → List UInt8) (fromHex : String → List UInt8)
    (upload : Upload) {count : ℕ} (hidle : api₀.Idle) (hids : DistinctIds idgen api₀ count)
    (hcount : 2 ≤ count) :
    (upload.start idgen sha256 fromHex api₀).1 = exposedId idgen api₀ ∧
      Agreed idgen sha256 fromHex api₀ upload 0 (upload.start idgen sha256 fromHex api₀).2 := by
  have hfirst : api₀.responseHandlers.contains (exposedId idgen api₀) = false :=
    hids.unregistered 0 (by omega)
  have hnew : NewId idgen api₀ { api₀ with drawn := api₀.drawn + 1 } :=
    newId_of_distinctIds hids (Nat.lt_succ_self _) (Nat.add_lt_add_left hcount _)
  obtain ⟨hid, huploading, hsent, hprogressed, hdrawn⟩ :=
    uploading_start sha256 fromHex upload hidle hfirst hnew
  have hzero : upload.position 0 = 0 := by simp [position, Chunks.offset]
  have hstart : Uploading idgen api₀ upload (upload.position 0)
      (JadeAPI.drawnId idgen (api₀.drawn + 1)) [] (upload.start idgen sha256 fromHex api₀).2 := by
    rw [hzero]
    exact huploading
  refine ⟨hid, .uploading (Nat.zero_le _) (Nat.le_of_eq hdrawn) hstart, ?_, hprogressed⟩
  rw [hsent]
  rfl

/-- If all answers are true, the upload goes through its stages. -/
theorem agreed_run (hchunk : 1 ≤ upload.chunkSize) (hidle : api₀.Idle)
    (hids : DistinctIds idgen api₀ (rs.length + 2))
    (hvalid : (uploads idgen).Valid (upload.start idgen sha256 fromHex api₀).2 rs)
    (htruthy : ∀ r ∈ rs, truthy r = true) :
    Agreed idgen sha256 fromHex api₀ upload rs.length
      ((uploads idgen).run (upload.start idgen sha256 fromHex api₀).2 rs) := by
  refine (uploads idgen).run_history
    (I := fun answered api => Agreed idgen sha256 fromHex api₀ upload answered.length api)
    (agreed_start sha256 fromHex upload hidle hids (by omega)).2 ?_
  intro answered msg rest hsplit h
  have hlength : answered.length + 3 ≤ rs.length + 2 := by
    rw [hsplit, List.length_append, List.length_cons]
    omega
  have hmsg := Reactive.Along.at answered (hsplit ▸ hvalid)
  rw [List.length_append]
  exact h.next hchunk hids hlength hmsg (htruthy msg (by simp [hsplit]))

/-- The upload is completed behind the last chunk, under the exposed id. -/
theorem Agreed.latest (h : Agreed idgen sha256 fromHex api₀ upload k api)
    (hk : upload.parts.length < k) :
    api.sentRequests.getLast? = some (otaComplete (exposedId idgen api₀)) := by
  cases h.stage with
  | uploading hle => exact (Nat.not_lt_of_le hle hk).elim
  | finishing hfinishing => exact hfinishing.latest
  | ended _ hlatest => exact hlatest

theorem Agreed.called (h : Agreed idgen sha256 fromHex api₀ upload k api) :
    api.calls = [] ∨ upload.parts.length + 2 = k ∧ ∃ msg, api.calls = [(upload.cb, msg)] := by
  cases h.stage with
  | uploading _ _ huploading => exact .inl huploading.quiet
  | finishing hfinishing => exact .inl hfinishing.quiet
  | ended hover =>
      obtain ⟨msg, hcalls, -⟩ := hover.called
      exact .inr ⟨rfl, msg, hcalls⟩

theorem Agreed.waiting (h : Agreed idgen sha256 fromHex api₀ upload 0 api) :
    ∃ tmpId, Uploading idgen api₀ upload (upload.position 0) tmpId [] api ∧
      api.drawn ≤ api₀.drawn + 2 := by
  cases h.stage with
  | uploading _ hdrawn huploading => exact ⟨_, huploading, hdrawn⟩

/-- If no answer is an error or not true, an upload that is not through waits for the next. -/
theorem uploading_run (hchunk : 1 ≤ upload.chunkSize) {count : ℕ}
    (hids : DistinctIds idgen api₀ count)
    (h : Uploading idgen api₀ upload (upload.position k) tmpId forwards api)
    (hdrawn : api.drawn + rs.length ≤ api₀.drawn + count) (hvalid : (uploads idgen).Valid api rs)
    (hgo : ∀ r ∈ rs, refuses r = false) (hk : k + rs.countP truthy ≤ upload.parts.length) :
    ∃ tmpId forwards, Uploading idgen api₀ upload (upload.position (k + rs.countP truthy)) tmpId
      forwards ((uploads idgen).run api rs) := by
  induction rs generalizing api k tmpId forwards with
  | nil => exact ⟨tmpId, forwards, h⟩
  | cons r rs ih =>
      obtain ⟨hmsg, hrest⟩ := hvalid
      have hgo' : ∀ r ∈ rs, refuses r = false := fun r hr => hgo r (List.mem_cons_of_mem _ hr)
      rw [List.length_cons] at hdrawn
      by_cases htruthy : truthy r = true
      · rw [List.countP_cons_of_pos htruthy] at hk ⊢
        have hlt : k < upload.parts.length := by omega
        have hpos := (position_lt hchunk hlt).1
        have hnew : NewId idgen api₀ api := newId_of_distinctIds hids h.drawn (by omega)
        obtain ⟨hnext, hsent⟩ := h.next_chunk hmsg.1 htruthy hnew (by omega)
        rw [position_succ hchunk hlt] at hnext
        have hmore := hsent.drawn
        have hless : (api.processResponseMessage idgen r).drawn + rs.length ≤
            api₀.drawn + count := by omega
        rw [← Nat.add_assoc, Nat.add_right_comm] at hk ⊢
        exact ih hnext hless hrest hgo' hk
      · have hhttp : JadeAPI.wantsHttpRequest r = true := by
          have hno := hgo r List.mem_cons_self
          simpa [refuses, htruthy] using hno
        rw [List.countP_cons_of_neg htruthy] at hk ⊢
        obtain ⟨forwards', hnext, hmore⟩ := h.next_http hmsg.1 hhttp hids (by omega)
        have hless : (api.processResponseMessage idgen r).drawn + rs.length ≤
            api₀.drawn + count := by omega
        exact ih hnext hless hrest hgo' hk

end

/-- The state of the API once the device has given the answers. -/
def after (idgen : ℕ → Fin 90000) (sha256 : List UInt8 → List UInt8) (fromHex : String → List UInt8)
    (upload : Upload) (api₀ : JadeAPI) (rs : List Fields) : JadeAPI :=
  (uploads idgen).run (upload.start idgen sha256 fromHex api₀).2 rs

/-- What comes of an upload whose messages are all answered by something true. -/
structure SendsWhole (idgen : ℕ → Fin 90000) (sha256 : List UInt8 → List UInt8)
    (fromHex : String → List UInt8) (upload : Upload) (api₀ : JadeAPI) (rs : List Fields) :
    Prop where
  sent : (upload.after idgen sha256 fromHex api₀ rs).sentRequests.map Request.body =
    (upload.script sha256 fromHex).take (rs.length + 1)
  /-- Behind the last chunk, the upload is completed under the id that was returned. -/
  completed : upload.parts.length < rs.length →
    (upload.after idgen sha256 fromHex api₀ rs).sentRequests.getLast? =
      some (otaComplete (upload.start idgen sha256 fromHex api₀).1)
  progressed : (upload.after idgen sha256 fromHex api₀ rs).progressed =
    (upload.counts.take rs.length).flatMap fun count : ℕ =>
      upload.report (upload.start idgen sha256 fromHex api₀).1 count
  /-- The caller hears of the answer to that message, and of nothing before. -/
  called : (upload.after idgen sha256 fromHex api₀ rs).calls = [] ∨
    upload.parts.length + 2 = rs.length ∧
      ∃ msg, (upload.after idgen sha256 fromHex api₀ rs).calls = [(upload.cb, msg)]

/-- **An upload sends the whole image**, in chunks that are neither empty nor too long, if the
device agrees to every message, and at the first refusal it stops and tells the caller. -/
structure Uploads (idgen : ℕ → Fin 90000) (sha256 : List UInt8 → List UInt8)
    (fromHex : String → List UInt8) (upload : Upload) (api₀ : JadeAPI) (rs : List Fields) :
    Prop where
  whole : upload.parts.flatten = upload.fwcmp
  bounded : ∀ part ∈ upload.parts, part ≠ [] ∧ part.length ≤ upload.chunkSize
  increasing : upload.counts.Pairwise (· < ·) ∧ upload.counts.head? = some 0 ∧
    upload.counts.getLast? = some upload.fwcmp.length
  agreed : (∀ r ∈ rs, truthy r = true) → SendsWhole idgen sha256 fromHex upload api₀ rs
  refused : ∀ before r rest, rs = before ++ r :: rest → (∀ r ∈ before, refuses r = false) →
    before.countP truthy ≤ upload.parts.length → refuses r = true →
      (upload.after idgen sha256 fromHex api₀ rs).sentRequests =
        (upload.after idgen sha256 fromHex api₀ before).sentRequests ∧
      ∃ msg, (upload.after idgen sha256 fromHex api₀ rs).calls = [(upload.cb, msg)] ∧
        textToInt (msg.value "id").toText = (upload.start idgen sha256 fromHex api₀).1 ∧
        SameButId r msg

section
variable {idgen : ℕ → Fin 90000} {api₀ api : JadeAPI} {upload : Upload} {answer : Fields}
variable {rs : List Fields}

/-- Once nothing is waited for, there are no answers. -/
theorem Over.no_answers (h : Over idgen api₀ upload answer api)
    (hvalid : (uploads idgen).Valid api rs) : rs = [] := by
  cases rs with
  | nil => rfl
  | cons r rs =>
      have hinflight := hvalid.1.2
      rw [h.inflight] at hinflight
      cases hinflight

end

theorem uploads_spec {idgen : ℕ → Fin 90000} {sha256 : List UInt8 → List UInt8}
    {fromHex : String → List UInt8} {upload : Upload} {api₀ : JadeAPI} {rs : List Fields}
    (hidle : api₀.Idle) (hids : DistinctIds idgen api₀ (rs.length + 2))
    (hchunk : 1 ≤ upload.chunkSize)
    (hvalid : (uploads idgen).Valid (upload.start idgen sha256 fromHex api₀).2 rs) :
    Uploads idgen sha256 fromHex upload api₀ rs := by
  have hpos : 0 < upload.chunkSize.toNat := by omega
  obtain ⟨hid, hstart⟩ := agreed_start sha256 fromHex upload hidle hids (by omega)
  refine ⟨Chunks.flatten_chunks hpos _, ?_, ⟨?_, ?_, ?_⟩, ?_, ?_⟩
  · intro part hpart
    obtain ⟨hne, hle⟩ := Chunks.of_mem_chunks hpos hpart
    exact ⟨hne, by omega⟩
  · exact Chunks.pairwise_offsets hpos _
  · exact Chunks.head?_offsets _ _
  · exact Chunks.getLast?_offsets hpos _
  · intro htruthy
    have hrun := agreed_run hchunk hidle hids hvalid htruthy
    refine ⟨hrun.sent, ?_, hid ▸ hrun.progressed, ?_⟩
    · intro hmore
      rw [hid]
      exact hrun.latest hmore
    · exact hrun.called
  · rintro before r rest rfl hgo hcount hrefuses
    obtain ⟨hbefore, hmsg, hrest⟩ := (Reactive.along_append _ _ _ before (r :: rest)).mp hvalid
    obtain ⟨tmpId, hwaiting, hdrawn⟩ := hstart.waiting
    have hless : (upload.start idgen sha256 fromHex api₀).2.drawn + before.length ≤
        api₀.drawn + ((before ++ r :: rest).length + 2) := by
      rw [List.length_append]
      omega
    rw [← Nat.zero_add (before.countP truthy)] at hcount
    obtain ⟨tmpId, forwards, huploading⟩ :=
      uploading_run hchunk hids hwaiting hless hbefore hgo hcount
    obtain ⟨hover, hsent⟩ := huploading.next_refused hmsg.1 hrefuses
    have hnone := hover.no_answers hrest
    subst hnone
    have hafter : upload.after idgen sha256 fromHex api₀ (before ++ [r]) =
        (upload.after idgen sha256 fromHex api₀ before).processResponseMessage idgen r :=
      Reactive.run_concat _ _ before r
    rw [hafter, hid]
    exact ⟨hsent, hover.called⟩

def smallUpload : Upload where
  request := .delta 5 "" 9
  fwcmp := [1, 2, 3]
  chunkSize := 2
  cbProgress := some 8
  cb := 7

/-- The device agrees to the upload, to both chunks and to its end. -/
def agreeing : List Fields :=
  [[("id", .text "10001"), ("result", .bool true)],
    [("id", .text "10002"), ("result", .bool true)],
    [("id", .text "10003"), ("result", .bool true)],
    [("id", .text "10000"), ("result", .bool true)]]

theorem uploads_spec_agreeing :
    Uploads counting (fun data => data) (fun _ => []) smallUpload {} agreeing :=
  uploads_spec ⟨rfl, rfl, rfl⟩ (distinctIds_counting (by decide)) (by decide) (by decide +kernel)

end Upload
end GreenWallet.Jade
