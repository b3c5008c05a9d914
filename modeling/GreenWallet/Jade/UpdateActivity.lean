import GreenWallet.Jade.OtaUpload

/-!
# The chunk size of a firmware update

An update takes the size of the chunks from the version info of the device, and no one looks at
it on the way to the upload. What follows is an upload to a device that agrees to every message:
it is completed exactly if the size is positive.
-/
namespace GreenWallet.Jade
open GreenWallet.Library
open Std (ExtTreeMap)

namespace Variant

/-- `QVariant::toLongLong`; `convert` is the conversion of texts, bytes and floating point
numbers. -/
def toLongLong (convert : Variant → Int) : Variant → Int
  | .invalid | .null | .list _ | .map _ => 0
  | .bool value => if value then 1 else 0
  | .int value => value
  | .text value => convert (.text value)
  | .bytes value => convert (.bytes value)
  | .other asBool asBytes => convert (.other asBool asBytes)

/-- `QVariant::toInt`: what does not fit overflows. -/
def toInt (convert : Variant → Int) (v : Variant) : Int := (Int32.ofInt (v.toLongLong convert)).toInt

end Variant

/-- What an update uses of a device; whether writes are relaxed is a setting of its API. -/
structure JadeDevice where
  api : Option JadeAPI
  relaxWrite : Bool
  versionInfo : Fields

/-- The firmware is an entry of the index, which is JSON. -/
structure JadeUpdateActivity where
  device : JadeDevice
  firmware : Fields
  data : List UInt8

namespace JadeUpdateActivity

section
variable (idgen : ℕ → Fin 90000) (sha256 : List UInt8 → List UInt8)
variable (fromHex : String → List UInt8) (convert : Variant → Int)
variable (activity : JadeUpdateActivity)

/-- Without an API the activity fails. The callbacks are numbers. -/
def exec (progress_cb done_cb : ℕ) : Option (Int × JadeAPI) :=
  match activity.device.api with
  | none => none
  | some backend =>
      let size := (activity.firmware.value "fwsize").toLongLong convert
      let chunk_size :=
        if activity.device.relaxWrite then 256
        else (activity.device.versionInfo.value "JADE_OTA_MAX_CHUNK").toInt convert
      let fwhash := (activity.firmware.value "fwhash").toText
      if (activity.firmware.value "delta").toBool then
        let patch_size := (activity.firmware.value "patch_size").toInt convert
        some (backend.otaDeltaUpdate idgen sha256 fromHex activity.data (Int32.ofInt size).toInt
          fwhash patch_size chunk_size (some progress_cb) done_cb)
      else
        some (backend.otaUpdate idgen sha256 fromHex activity.data (Int32.ofInt size).toInt fwhash
          chunk_size (some progress_cb) done_cb)

def chunkSize : Int :=
  if activity.device.relaxWrite then 256
  else (activity.device.versionInfo.value "JADE_OTA_MAX_CHUNK").toInt convert

/-- The upload that the activity starts. -/
def upload (progress_cb done_cb : ℕ) : Upload where
  request :=
    let fwlen := (activity.firmware.value "fwsize").toInt convert
    let fwhash := (activity.firmware.value "fwhash").toText
    if (activity.firmware.value "delta").toBool then
      .delta fwlen fwhash ((activity.firmware.value "patch_size").toInt convert)
    else .full fwlen fwhash
  fwcmp := activity.data
  chunkSize := activity.chunkSize convert
  cbProgress := some progress_cb
  cb := done_cb

theorem exec_eq (progress_cb done_cb : ℕ) : activity.exec idgen sha256 fromHex convert progress_cb
    done_cb = activity.device.api.map
      ((activity.upload convert progress_cb done_cb).start idgen sha256 fromHex) := by
  unfold exec
  cases activity.device.api with
  | none => rfl
  | some backend =>
      by_cases hdelta : (activity.firmware.value "delta").toBool = true
      · simp only [hdelta, if_true, Option.map_some, Upload.start, upload]
        rfl
      · simp only [hdelta, Bool.false_eq_true, if_false, Option.map_some, Upload.start, upload]
        rfl

end

end JadeUpdateActivity

namespace JadeAPI
variable {idgen : ℕ → Fin 90000} {api : JadeAPI}

theorem redraw_spec (idgen : ℕ → Fin 90000) (tries i : ℕ) (api : JadeAPI) :
    ∃ j k, redraw idgen tries (drawnId idgen i) api = (drawnId idgen j, { api with drawn := k }) := by
  induction tries generalizing i api with
  | zero => exact ⟨i, api.drawn, rfl⟩
  | succ tries ih =>
      rw [redraw]
      split_ifs
      · exact ih api.drawn { api with drawn := api.drawn + 1 }
      · exact ⟨i, api.drawn, rfl⟩

/-- Whatever is drawn, the handler is registered under the id that is returned. -/
theorem registerResponseHandler_spec (idgen : ℕ → Fin 90000) (cb : Handler) (api : JadeAPI) :
    ∃ i k, api.registerResponseHandler idgen cb 0 =
      (drawnId idgen i,
        { api with
          drawn := k
          responseHandlers := api.responseHandlers.insert (drawnId idgen i) cb }) := by
  obtain ⟨i, k, hdraw⟩ := redraw_spec idgen 5 api.drawn { api with drawn := api.drawn + 1 }
  refine ⟨i, k, ?_⟩
  simp [registerResponseHandler, getNewId, hdraw]

end JadeAPI

/-- A device that says yes to every message, in words that may depend on all it was sent. -/
structure Agrees (respond : List Request → Fields) : Prop where
  answers : ∀ (requests : List Request) (last : Request), requests.getLast? = some last →
    (respond requests).value "id" = .text last.id
  agrees : ∀ requests, truthy (respond requests) = true

/-- The state of the API after so many answers of the device. -/
def answered (idgen : ℕ → Fin 90000) (respond : List Request → Fields) (api : JadeAPI) :
    ℕ → JadeAPI
  | 0 => api
  | n + 1 =>
      let api := answered idgen respond api n
      api.processResponseMessage idgen (respond api.sentRequests)

/-- After finitely many answers the upload is completed. -/
def Completes (idgen : ℕ → Fin 90000) (respond : List Request → Fields) (api : JadeAPI) : Prop :=
  ∃ n, ∃ request ∈ (answered idgen respond api n).sentRequests, request.method = "ota_complete"

namespace Upload
variable {idgen : ℕ → Fin 90000} {respond : List Request → Fields} {api : JadeAPI}
variable {upload : Upload} {id currentPos : Int}

/-- The answer to the latest message goes to the handler of a chunk. -/
structure Serving (upload : Upload) (id currentPos : Int) (api : JadeAPI) : Prop where
  handler : ∃ last, api.sentRequests.getLast? = some last ∧ textToInt last.id ≠ 0 ∧
    api.responseHandlers[textToInt last.id]? = some (upload.handler id currentPos)
  queue : api.msgQueue = []

/-- The next message is sent. -/
theorem Serving.next (idgen : ℕ → Fin 90000) (h : Serving upload id currentPos api)
    (hrespond : Agrees respond) :
    (currentPos < upload.fwcmp.length → ∃ tmpId,
      Serving upload id (currentPos + upload.nextChunkLen currentPos)
          (api.processResponseMessage idgen (respond api.sentRequests)) ∧
        (api.processResponseMessage idgen (respond api.sentRequests)).sentRequests =
          api.sentRequests ++ [upload.chunkRequest currentPos tmpId]) ∧
    (¬ currentPos < upload.fwcmp.length →
      (api.processResponseMessage idgen (respond api.sentRequests)).sentRequests =
        api.sentRequests ++ [otaComplete id]) := by
  obtain ⟨last, hlast, hne, hhandler⟩ := h.handler
  have htruthy := hrespond.agrees api.sentRequests
  have hvalue := hrespond.answers api.sentRequests last hlast
  have htext : textToInt ((respond api.sentRequests).value "id").toText = textToInt last.id := by
    rw [hvalue]
    rfl
  have hprocess : api.processResponseMessage idgen (respond api.sentRequests) = _ :=
    JadeAPI.processResponseMessage_of_text hvalue rfl hne (not_wantsHttpRequest_of_truthy htruthy)
  have hrun := runHandler_of_truthy idgen upload id currentPos htruthy (api.take (textToInt last.id))
  rw [JadeAPI.callResponseHandler_of_run htext hhandler hrun] at hprocess
  obtain ⟨hreported, hhandlers, hproxies⟩ :=
    reported_spec upload id currentPos (api.take (textToInt last.id))
  rw [hprocess]
  constructor
  · intro hpos
    obtain ⟨i, k, hregister⟩ := JadeAPI.registerResponseHandler_spec idgen
      (upload.handler id (currentPos + upload.nextChunkLen currentPos))
      (upload.reported id currentPos (api.take (textToInt last.id)))
    have hid : textToInt (upload.chunkRequest currentPos (JadeAPI.drawnId idgen i)).id =
        JadeAPI.drawnId idgen i := JadeAPI.textToInt_drawnId idgen i
    obtain ⟨registered, hregistered⟩ : ∃ registered : JadeAPI, registered =
        { upload.reported id currentPos (api.take (textToInt last.id)) with
          drawn := k
          responseHandlers :=
            (upload.reported id currentPos (api.take (textToInt last.id))).responseHandlers.insert
              (JadeAPI.drawnId idgen i)
              (upload.handler id (currentPos + upload.nextChunkLen currentPos)) } := ⟨_, rfl⟩
    have hqueue : registered.msgQueue = [] := by
      rw [hregistered]
      exact hreported.queue.trans h.queue
    have hbefore : registered.sentRequests = api.sentRequests := by
      rw [hregistered]
      exact hreported.sent
    obtain ⟨htables, hqueue', hsent, -, -⟩ :=
      drain_send hqueue (upload.chunkRequest currentPos (JadeAPI.drawnId idgen i))
        (textToInt last.id)
    rw [if_pos hpos, hregister, ← hregistered]
    rw [hbefore] at hsent
    refine ⟨JadeAPI.drawnId idgen i,
      ⟨⟨upload.chunkRequest currentPos (JadeAPI.drawnId idgen i), ?_, ?_, ?_⟩, hqueue'⟩, hsent⟩
    · exact (congrArg List.getLast? hsent).trans List.getLast?_concat
    · rw [hid]
      exact JadeAPI.drawnId_ne_zero idgen i
    · rw [hid]
      refine (congrArg (·[JadeAPI.drawnId idgen i]?) htables.responseHandlers).trans ?_
      simp [hregistered]
  · intro hpos
    rw [if_neg hpos]
    obtain ⟨htables, hqueue, hsent, -, -⟩ :=
      drain_send (hreported.queue.trans h.queue) (otaComplete id) (textToInt last.id)
    exact hsent.trans (congrArg (· ++ [otaComplete id]) hreported.sent)

/-- The initiating message is sent. -/
theorem serving_start (idgen : ℕ → Fin 90000) (sha256 : List UInt8 → List UInt8)
    (fromHex : String → List UInt8) (upload : Upload) (hidle : api.Idle) :
    Serving upload (upload.start idgen sha256 fromHex api).1 0
        (upload.start idgen sha256 fromHex api).2 ∧
      ∃ tmpId, (upload.start idgen sha256 fromHex api).2.sentRequests =
        [upload.initiating sha256 fromHex tmpId] := by
  obtain ⟨i, k, hfirst⟩ := JadeAPI.registerResponseHandler_spec idgen (.client upload.cb) api
  obtain ⟨j, l, hsecond⟩ := JadeAPI.registerResponseHandler_spec idgen
    (upload.handler (JadeAPI.drawnId idgen i) 0)
    { api with
      drawn := k
      responseHandlers := api.responseHandlers.insert (JadeAPI.drawnId idgen i)
        (.client upload.cb) }
  obtain ⟨registered, hregistered⟩ : ∃ registered : JadeAPI, registered =
      { api with
        drawn := l
        responseHandlers := (api.responseHandlers.insert (JadeAPI.drawnId idgen i)
          (.client upload.cb)).insert (JadeAPI.drawnId idgen j)
            (upload.handler (JadeAPI.drawnId idgen i) 0) } := ⟨_, rfl⟩
  rw [← hregistered] at hsecond
  unfold handler at hsecond
  have hinflight : registered.msgInflight = [] := by
    rw [hregistered]
    exact hidle.inflight
  have hqueue : registered.msgQueue = [] := by
    rw [hregistered]
    exact hidle.queue
  have hsent : registered.sentRequests = [] := by
    rw [hregistered, JadeAPI.sentRequests, hidle.output]
    rfl
  have hstart : upload.start idgen sha256 fromHex api =
      (JadeAPI.drawnId idgen i,
        registered.send (upload.initiating sha256 fromHex (JadeAPI.drawnId idgen j))) := by
    rw [start_eq, JadeAPI.initiateOta, hfirst]
    simp only [hsecond]
    rw [JadeAPI.enqueue_of_idle hinflight hqueue]
    rfl
  have hid : textToInt (upload.initiating sha256 fromHex (JadeAPI.drawnId idgen j)).id =
      JadeAPI.drawnId idgen j := JadeAPI.textToInt_drawnId idgen j
  have hsent' : (registered.send (upload.initiating sha256 fromHex
      (JadeAPI.drawnId idgen j))).sentRequests =
        [upload.initiating sha256 fromHex (JadeAPI.drawnId idgen j)] := by
    rw [JadeAPI.send_sentRequests, hsent]
    rfl
  rw [hstart]
  refine ⟨⟨⟨upload.initiating sha256 fromHex (JadeAPI.drawnId idgen j), ?_, ?_, ?_⟩, ?_⟩,
    JadeAPI.drawnId idgen j, hsent'⟩
  · rw [hsent']
    rfl
  · rw [hid]
    exact JadeAPI.drawnId_ne_zero idgen j
  · rw [hid, JadeAPI.send_responseHandlers]
    simp [hregistered]
  · exact (JadeAPI.send_msgQueue _).trans hqueue

variable {sha256 : List UInt8 → List UInt8} {fromHex : String → List UInt8}

theorem method_ne (upload : Upload) : upload.method ≠ "ota_complete" := by
  unfold method
  split <;> decide

/-- With chunks of a size, so many answers lead to the chunk with that number. -/
theorem serving_answered (idgen : ℕ → Fin 90000) (sha256 : List UInt8 → List UInt8)
    (fromHex : String → List UInt8) (hrespond : Agrees respond) (hidle : api.Idle)
    (hchunk : 1 ≤ upload.chunkSize) {n : ℕ} (hn : n ≤ upload.parts.length) :
    Serving upload (upload.start idgen sha256 fromHex api).1 (upload.position n)
      (answered idgen respond (upload.start idgen sha256 fromHex api).2 n) := by
  induction n with
  | zero =>
      have hzero : upload.position 0 = 0 := by simp [position, Chunks.offset]
      rw [hzero]
      exact (serving_start idgen sha256 fromHex upload hidle).1
  | succ n ih =>
      have hpos : ((upload.position n : ℕ) : Int) < upload.fwcmp.length :=
        Int.ofNat_lt.mpr (position_lt hchunk hn).1
      obtain ⟨tmpId, hnext, -⟩ :=
        ((ih (Nat.le_of_succ_le hn)).next idgen hrespond).1 hpos
      rw [position_succ hchunk hn] at hnext
      exact hnext

/-- Without, the upload never gets ahead. -/
theorem stuck_answered (hrespond : Agrees respond) (hidle : api.Idle)
    (hchunk : upload.chunkSize ≤ 0) (hdata : upload.fwcmp ≠ []) (n : ℕ) :
    (∃ currentPos ≤ 0, Serving upload (upload.start idgen sha256 fromHex api).1 currentPos
      (answered idgen respond (upload.start idgen sha256 fromHex api).2 n)) ∧
    ∀ request ∈ (answered idgen respond (upload.start idgen sha256 fromHex api).2 n).sentRequests,
      request.method ≠ "ota_complete" := by
  induction n with
  | zero =>
      obtain ⟨hserving, tmpId, hsent⟩ := serving_start idgen sha256 fromHex upload hidle
      refine ⟨⟨0, Int.le_refl _, hserving⟩, ?_⟩
      intro request hrequest
      rw [answered, hsent, List.mem_singleton] at hrequest
      rw [hrequest]
      exact upload.method_ne
  | succ n ih =>
      obtain ⟨⟨currentPos, hle, hserving⟩, hmethods⟩ := ih
      have hlength : 0 < upload.fwcmp.length := List.length_pos_iff.mpr hdata
      have hpos : currentPos < upload.fwcmp.length := by omega
      obtain ⟨tmpId, hnext, hsent⟩ := (hserving.next idgen hrespond).1 hpos
      refine ⟨⟨_, ?_, hnext⟩, ?_⟩
      · rw [nextChunkLen, if_pos (by omega)]
        omega
      · intro request hrequest
        rw [answered, hsent, List.mem_append, List.mem_singleton] at hrequest
        rcases hrequest with hold | rfl
        · exact hmethods request hold
        · exact (by decide : "ota_data" ≠ "ota_complete")

/-- An upload is completed exactly if the chunks have a size. -/
theorem completes_iff (hrespond : Agrees respond) (hidle : api.Idle) (hdata : upload.fwcmp ≠ []) :
    Completes idgen respond (upload.start idgen sha256 fromHex api).2 ↔ 1 ≤ upload.chunkSize := by
  constructor
  · intro ⟨n, request, hrequest, hmethod⟩
    by_contra hchunk
    exact (stuck_answered hrespond hidle (by omega) hdata n).2 request hrequest hmethod
  · intro hchunk
    have hserving := serving_answered idgen sha256 fromHex hrespond hidle hchunk (Nat.le_refl _)
    rw [position_last hchunk] at hserving
    have hsent := (hserving.next idgen hrespond).2 (Int.lt_irrefl _)
    refine ⟨upload.parts.length + 1,
      otaComplete (upload.start idgen sha256 fromHex api).1, ?_, rfl⟩
    rw [answered, hsent]
    exact List.mem_append_right _ List.mem_cons_self

end Upload

namespace JadeUpdateActivity

theorem one_le_chunkSize (convert : Variant → Int) (activity : JadeUpdateActivity) :
    1 ≤ activity.chunkSize convert ↔ activity.device.relaxWrite = true ∨
      1 ≤ (activity.device.versionInfo.value "JADE_OTA_MAX_CHUNK").toInt convert := by
  rw [chunkSize]
  split_ifs with hrelax
  · simp [hrelax]
  · simp [hrelax]

/-- **The upload of an update** to a device that agrees is completed exactly if writes are relaxed
or the device has said a positive size. -/
theorem exec_completes_iff {idgen : ℕ → Fin 90000} {sha256 : List UInt8 → List UInt8}
    {fromHex : String → List UInt8} (convert : Variant → Int) {respond : List Request → Fields}
    {activity : JadeUpdateActivity} {backend : JadeAPI} (progress_cb done_cb : ℕ)
    (hapi : activity.device.api = some backend) (hidle : backend.Idle) (hdata : activity.data ≠ [])
    (hrespond : Agrees respond) :
    ∃ started, activity.exec idgen sha256 fromHex convert progress_cb done_cb = some started ∧
      (Completes idgen respond started.2 ↔ activity.device.relaxWrite = true ∨
        1 ≤ (activity.device.versionInfo.value "JADE_OTA_MAX_CHUNK").toInt convert) := by
  have hexec : activity.exec idgen sha256 fromHex convert progress_cb done_cb =
      some ((activity.upload convert progress_cb done_cb).start idgen sha256 fromHex backend) := by
    rw [exec_eq, hapi, Option.map_some]
  refine ⟨_, hexec, ?_⟩
  rw [← one_le_chunkSize]
  exact Upload.completes_iff hrespond hidle hdata

/-- The device repeats the id, and says yes. -/
def echo (requests : List Request) : Fields :=
  [("id", .text ((requests.getLast?.map Request.id).getD "")), ("result", .bool true)]

theorem agrees_echo : Agrees echo where
  answers requests last hlast := by
    rw [echo, hlast]
    rfl
  agrees _ := rfl

/-- An update of a device with the version info. -/
def updating (versionInfo : Fields) : JadeUpdateActivity where
  device := { api := some {}, relaxWrite := false, versionInfo }
  firmware := [("fwsize", .int 3), ("fwhash", .text "")]
  data := [1, 2, 3]

theorem exec_completes_iff_4096 :
    ∃ started, (updating [("JADE_OTA_MAX_CHUNK", .int 4096)]).exec counting (fun data => data)
        (fun _ => []) (fun _ => 0) 8 7 = some started ∧
      (Completes counting echo started.2 ↔
        (updating [("JADE_OTA_MAX_CHUNK", .int 4096)]).device.relaxWrite = true ∨
        1 ≤ ((updating [("JADE_OTA_MAX_CHUNK", .int 4096)]).device.versionInfo.value
          "JADE_OTA_MAX_CHUNK").toInt fun _ => 0) :=
  exec_completes_iff (fun _ => 0) 8 7 rfl ⟨rfl, rfl, rfl⟩ (by decide) agrees_echo

/-- Without an entry in the version info the device is sent empty chunks for ever. -/
theorem not_completes_absent :
    Agrees echo ∧ ∃ started, (updating []).exec counting (fun data => data) (fun _ => [])
      (fun _ => 0) 8 7 = some started ∧ ¬ Completes counting echo started.2 := by
  have hexec := (updating []).exec_eq counting (fun data => data) (fun _ => []) (fun _ => 0) 8 7
  have hdata : ((updating []).upload (fun _ => 0) 8 7).fwcmp ≠ [] := by decide
  refine ⟨agrees_echo, _, hexec, ?_⟩
  intro hcompletes
  have hchunk := (Upload.completes_iff agrees_echo ⟨rfl, rfl, rfl⟩ hdata).mp hcompletes
  exact absurd hchunk (by decide)

end JadeUpdateActivity

end GreenWallet.Jade
