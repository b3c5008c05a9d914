import GreenWallet.Jade.Connection

/-!
# Closing and opening a connection again

The buffer of the connection is kept when the port is closed. What is left in it then comes
before the first bytes of the next connection.
-/
namespace GreenWallet.Jade
open Library

namespace JadeConnection
variable {fromCbor : CborReader} {code : CborCode} {connection : JadeConnection}

def messages (signals : List Signal) : List QCborMap :=
  signals.filterMap fun
    | .onNewMessageReceived msg => some msg
    | _ => none

/-- The signals of a run. -/
def signals (fromCbor : CborReader) (connection : JadeConnection) (events : List Event) :
    List Signal :=
  ((serial fromCbor).trace connection events).flatMap fun step => step.2.2

/-- The messages of the chunks that come once the port has been opened. -/
def decoded (fromCbor : CborReader) (connection : JadeConnection)
    (chunks : List (List UInt8)) : List QCborMap :=
  messages (signals fromCbor ((serial fromCbor).run connection [.connectDevice true])
    (chunks.map .readyRead))

/-- Any stream of maps is decoded as if the connection had just been created. -/
def RestartsClean (fromCbor : CborReader) (code : CborCode) (connection : JadeConnection) : Prop :=
  ∀ words msgs chunks, Encoded code words msgs → chunks.flatten = words.flatten →
    decoded fromCbor connection chunks = decoded fromCbor {} chunks

/-- Nothing, or lines of the log that are complete. -/
def OnlyLogs (code : CborCode) (bytes : List UInt8) : Prop :=
  ∃ words msgs, Encoded code words msgs ∧ bytes = words.flatten ∧ ∀ msg ∈ msgs, msg.contains "log"

/-- What is used of CBOR: the encodings of `{}` and of `{"": 0}`, and that only the shortest
encoding of `{}` ends with its first byte. -/
structure Maps (code : CborCode) : Prop where
  empty : code [0xA0] (.map [])
  zero : code [0xA1, 0x60, 0x00] (.map [(.string "", .integer 0)])
  empty_of_last : ∀ bytes, code (bytes ++ [0xA0]) (.map []) → bytes = []

@[simp] theorem messages_passedOn (msgs : List QCborMap) :
    messages ((passedOn msgs).map .onNewMessageReceived) = passedOn msgs := by
  rw [messages, List.filterMap_map]
  exact List.filterMap_some

theorem isOpen_of_parse (hopen : (connection.parse fromCbor).1.isOpen = true) :
    connection.isOpen = true := by
  fun_induction parse fromCbor connection with
  | case1 connection hempty => exact hopen
  | case2 connection hempty hread => exact hopen
  | case3 connection hempty hread => cases hopen
  | case4 connection hempty cbor offset hread rest hmap next signals hparse ih =>
      rw [hparse] at ih
      exact ih hopen
  | case5 connection hempty cbor offset hread rest hmap => cases hopen

theorem isOpen_of_receive {chunks : List (List UInt8)}
    (hopen : (connection.receive fromCbor chunks).1.isOpen = true) : connection.isOpen = true := by
  induction chunks generalizing connection with
  | nil => exact hopen
  | cons chunk chunks ih =>
      have hnext : (connection.onDataReceived fromCbor chunk).1.isOpen = true := ih hopen
      have hparse := isOpen_of_parse hnext
      exact hparse

/-- Over a port that stays open, the chunks are received one after the other. -/
theorem signals_readyRead (connection : JadeConnection) {chunks : List (List UInt8)}
    (hopen : (connection.receive fromCbor chunks).1.isOpen = true) :
    signals fromCbor connection (chunks.map .readyRead) =
      (connection.receive fromCbor chunks).2 := by
  induction chunks generalizing connection with
  | nil => rfl
  | cons chunk chunks ih =>
      have hfirst : connection.handle fromCbor (.readyRead chunk) =
          connection.onDataReceived fromCbor chunk := if_pos (isOpen_of_receive hopen)
      have hrest := ih (connection.onDataReceived fromCbor chunk).1 hopen
      rw [receive_cons, ← hrest]
      simp only [signals, List.map_cons, Reactive.trace, List.flatMap_cons, serial, hfirst]

theorem signals_readyRead_once (hopen : connection.isOpen = true) (chunk : List UInt8) :
    signals fromCbor connection [.readyRead chunk] =
      (connection.onDataReceived fromCbor chunk).2 := by
  have hfirst : connection.handle fromCbor (.readyRead chunk) =
      connection.onDataReceived fromCbor chunk := if_pos hopen
  simp only [signals, Reactive.trace, List.flatMap_cons, List.flatMap_nil, serial, hfirst,
    List.append_nil]

/-- The connection once its port is open. -/
def opened (connection : JadeConnection) : JadeConnection :=
  { connection with isOpen := true, connecting := connection.connecting + 1 }

theorem run_connectDevice (hclosed : connection.isOpen = false) :
    (serial fromCbor).run connection [.connectDevice true] = connection.opened := by
  rw [Reactive.run_cons, Reactive.run_nil]
  simp only [serial, handle, connectDevice, hclosed, opened]
  rfl

theorem decoded_of_receive (hclosed : connection.isOpen = false) {chunks : List (List UInt8)}
    (hopen : (connection.opened.receive fromCbor chunks).1.isOpen = true) :
    decoded fromCbor connection chunks =
      messages (connection.opened.receive fromCbor chunks).2 := by
  rw [decoded, run_connectDevice hclosed, signals_readyRead _ hopen]

theorem decoded_of_fresh (hreads : fromCbor.Reads code) {words : List (List UInt8)}
    {msgs : List QCborMap} (hwords : Encoded code words msgs) {chunks : List (List UInt8)}
    (hchunks : chunks.flatten = words.flatten) (hclosed : connection.isOpen = false)
    (hunparsed : connection.unparsed = []) :
    decoded fromCbor connection chunks = passedOn msgs := by
  have hreceive := receive_of_fresh connection.opened hreads hwords hchunks hunparsed
  have hopen : (connection.opened.receive fromCbor chunks).1.isOpen = true := by
    rw [hreceive]
    rfl
  rw [decoded_of_receive hclosed hopen, hreceive, messages_passedOn]

/-! ## What is left over is lines of the log -/

theorem parse_onlyLogs (hreads : fromCbor.Reads code) {bytes : List UInt8}
    (hlogs : OnlyLogs code bytes) (later : List UInt8) :
    { connection with unparsed := bytes ++ later }.parse fromCbor =
      { connection with unparsed := later }.parse fromCbor := by
  obtain ⟨words, msgs, hwords, rfl, hlog⟩ := hlogs
  induction hwords with
  | nil => rfl
  | @cons word msg words msgs hcode hwords ih =>
      have hfirst : msg.contains "log" = true := hlog msg List.mem_cons_self
      rw [List.flatten_cons, List.append_assoc,
        parse_of_map (hreads.item_of_word (words.flatten ++ later) hcode)]
      simp only [List.drop_left, ih fun other hother => hlog other (List.mem_cons_of_mem _ hother)]
      simp [passedOn, hfirst]

theorem receive_onlyLogs (connection : JadeConnection) (hreads : fromCbor.Reads code)
    (hlogs : OnlyLogs code connection.unparsed) (chunk : List UInt8) (chunks : List (List UInt8)) :
    connection.receive fromCbor (chunk :: chunks) =
      { connection with unparsed := [] }.receive fromCbor (chunk :: chunks) := by
  simp only [receive_cons, onDataReceived, parse_onlyLogs hreads hlogs chunk, List.nil_append]

theorem restartsClean_of_onlyLogs (hreads : fromCbor.Reads code)
    (hclosed : connection.isOpen = false) (hlogs : OnlyLogs code connection.unparsed) :
    RestartsClean fromCbor code connection := by
  intro words msgs chunks hwords hchunks
  cases chunks with
  | nil => rfl
  | cons chunk chunks =>
      have hreceive := receive_of_fresh { connection.opened with unparsed := [] } hreads hwords
        hchunks rfl
      have hsame := receive_onlyLogs connection.opened hreads hlogs chunk chunks
      have hopen : (connection.opened.receive fromCbor (chunk :: chunks)).1.isOpen = true := by
        rw [hsame, hreceive]
        rfl
      rw [decoded_of_receive hclosed hopen, hsame, hreceive, messages_passedOn,
        decoded_of_fresh hreads hwords hchunks rfl rfl]

/-! ## What else can be left over shows -/

theorem messages_parse_of_map {cbor : QCborValue} {offset : ℕ}
    (hread : fromCbor.read connection.unparsed = .item cbor offset) (hmap : cbor.isMap = true)
    (hlog : cbor.toMap.contains "log" = false) :
    messages (connection.parse fromCbor).2 =
      cbor.toMap :: messages
        ({ connection with unparsed := connection.unparsed.drop offset }.parse fromCbor).2 := by
  rw [parse_of_item hread]
  simp only [hmap, hlog, if_true]
  rfl

theorem messages_parse_of_log {cbor : QCborValue} {offset : ℕ}
    (hread : fromCbor.read connection.unparsed = .item cbor offset) (hmap : cbor.isMap = true)
    (hlog : cbor.toMap.contains "log" = true) :
    messages (connection.parse fromCbor).2 =
      messages
        ({ connection with unparsed := connection.unparsed.drop offset }.parse fromCbor).2 := by
  rw [parse_of_item hread]
  simp only [hmap, hlog, if_true]

theorem messages_parse_of_other {cbor : QCborValue} {offset : ℕ}
    (hread : fromCbor.read connection.unparsed = .item cbor offset) (hmap : cbor.isMap = false) :
    messages (connection.parse fromCbor).2 = [] := by
  rw [parse_of_item hread]
  simp only [hmap]
  rfl

theorem messages_parse_of_not_item
    (hread : ∀ cbor offset, fromCbor.read connection.unparsed ≠ .item cbor offset) :
    messages (connection.parse fromCbor).2 = [] := by
  rw [parse]
  split
  · rfl
  · split
    · rfl
    · rfl
    · next cbor offset h => exact absurd h (hread cbor offset)

theorem toMap_of_isMap {cbor : QCborValue} (hmap : cbor.isMap = true) : cbor = .map cbor.toMap := by
  cases cbor with
  | map entries => rfl
  | integer | byteArray | string | array | tag | simpleType | double => cases hmap

/-- Where `{}` is found only together with all that was there, nothing was there. -/
theorem eq_nil_of_not_item (hreads : fromCbor.ReadsOnly code) (hmaps : Maps code)
    {unparsed : List UInt8} (hnone : ∀ cbor offset, fromCbor.read unparsed ≠ .item cbor offset)
    (hempty : messages
      ({ connection with unparsed := unparsed ++ [0xA0] }.parse fromCbor).2 = [[]]) :
    unparsed = [] := by
  by_cases hfound : ∃ cbor offset, fromCbor.read (unparsed ++ [0xA0]) = .item cbor offset
  · obtain ⟨cbor, offset, hread⟩ := hfound
    have hlt := hreads.length_lt_of_item hnone hread
    have hle := (fromCbor.progress hread).2
    have hall : offset = (unparsed ++ [0xA0]).length := by
      rw [List.length_append, List.length_singleton] at hle ⊢
      omega
    have hword := hreads.word_of_item hread
    rw [hall, List.take_length] at hword
    apply hmaps.empty_of_last
    cases hmap : cbor.isMap with
    | false =>
        rw [messages_parse_of_other hread hmap] at hempty
        cases hempty
    | true =>
        cases hlog : cbor.toMap.contains "log" with
        | false =>
            rw [messages_parse_of_map hread hmap hlog] at hempty
            rwa [toMap_of_isMap hmap, (List.cons_eq_cons.mp hempty).1] at hword
        | true =>
            rw [messages_parse_of_log hread hmap hlog, hall, List.drop_length,
              parse_of_empty rfl] at hempty
            cases hempty
  · push Not at hfound
    rw [messages_parse_of_not_item hfound] at hempty
    cases hempty

/-- Nothing but lines of the log leaves both `{}` and `{"": 0}` as they are. -/
theorem onlyLogs_of_messages (hreads : fromCbor.ReadsOnly code) (hmaps : Maps code)
    {unparsed : List UInt8}
    (hempty : messages ({ connection with unparsed := unparsed ++ [0xA0] }.parse fromCbor).2 = [[]])
    (hzero : messages
      ({ connection with unparsed := unparsed ++ [0xA1, 0x60, 0x00] }.parse fromCbor).2 =
        [[(.string "", .integer 0)]]) : OnlyLogs code unparsed := by
  induction hlength : unparsed.length using Nat.strongRecOn generalizing unparsed with
  | _ n ih =>
      subst hlength
      by_cases hfound : ∃ cbor offset, fromCbor.read unparsed = .item cbor offset
      · obtain ⟨cbor, offset, hread⟩ := hfound
        obtain ⟨hpos, hle⟩ := fromCbor.progress hread
        have hread₁ := hreads.item_append hread [0xA0]
        have hread₂ := hreads.item_append hread [0xA1, 0x60, 0x00]
        cases hmap : cbor.isMap with
        | false =>
            rw [messages_parse_of_other hread₁ hmap] at hempty
            cases hempty
        | true =>
            cases hlog : cbor.toMap.contains "log" with
            | false =>
                rw [messages_parse_of_map hread₁ hmap hlog] at hempty
                rw [messages_parse_of_map hread₂ hmap hlog] at hzero
                rw [(List.cons_eq_cons.mp hempty).1] at hzero
                cases hzero
            | true =>
                rw [messages_parse_of_log hread₁ hmap hlog] at hempty
                rw [messages_parse_of_log hread₂ hmap hlog] at hzero
                simp only [List.drop_append_of_le_length hle] at hempty hzero
                have hshorter : (unparsed.drop offset).length < unparsed.length := by
                  rw [List.length_drop]
                  omega
                obtain ⟨words, msgs, hwords, hrest, hlogs⟩ := ih _ hshorter hempty hzero rfl
                refine ⟨unparsed.take offset :: words, cbor.toMap :: msgs, ?_, ?_, ?_⟩
                · exact .cons (toMap_of_isMap hmap ▸ hreads.word_of_item hread) hwords
                · rw [List.flatten_cons, ← hrest, List.take_append_drop]
                · intro msg hmsg
                  rcases List.mem_cons.mp hmsg with rfl | hmsg
                  · exact hlog
                  · exact hlogs msg hmsg
      · push Not at hfound
        rw [eq_nil_of_not_item hreads hmaps hfound hempty]
        exact ⟨[], [], .nil, rfl, fun _ hmsg => by cases hmsg⟩

theorem onlyLogs_of_restartsClean (hreads : fromCbor.ReadsOnly code) (hmaps : Maps code)
    (hclosed : connection.isOpen = false) (hclean : RestartsClean fromCbor code connection) :
    OnlyLogs code connection.unparsed := by
  have honce : ∀ {word : List UInt8} {msg : QCborMap}, code word (.map msg) →
      msg.contains "log" = false →
      messages ({ connection.opened with unparsed := connection.unparsed ++ word }.parse
        fromCbor).2 = [msg] := by
    intro word msg hcode hlog
    have hwords : Encoded code [word] [msg] := .cons hcode .nil
    have hchunks : [word].flatten = [word].flatten := rfl
    have hfresh : decoded fromCbor {} [word] = passedOn [msg] :=
      decoded_of_fresh hreads.toReads hwords hchunks rfl rfl
    have hpassed : passedOn [msg] = [msg] := by simp [passedOn, hlog]
    have hsame := hclean _ _ [word] hwords hchunks
    rw [hfresh, hpassed, decoded, run_connectDevice hclosed, List.map_singleton,
      signals_readyRead_once rfl] at hsame
    exact hsame
  exact onlyLogs_of_messages hreads hmaps (honce hmaps.empty rfl) (honce hmaps.zero rfl)

/-- After any events that end with a closed port, the next connection decodes as a fresh one
exactly if nothing is left in the buffer but complete lines of the log. -/
theorem restartsClean_iff (fromCbor : CborReader) (code : CborCode)
    (hreads : fromCbor.ReadsOnly code) (hmaps : Maps code) (events : List Event)
    (hclosed : ((serial fromCbor).run {} events).isOpen = false) :
    RestartsClean fromCbor code ((serial fromCbor).run {} events) ↔
      OnlyLogs code ((serial fromCbor).run {} events).unparsed :=
  ⟨onlyLogs_of_restartsClean hreads hmaps hclosed, restartsClean_of_onlyLogs hreads.toReads hclosed⟩

theorem maps_someMaps : Maps fun word v => (word, v) ∈ someMaps := by
  refine ⟨by simp [someMaps], by simp [someMaps], ?_⟩
  intro bytes hbytes
  simpa [someMaps] using hbytes

theorem run_truncated :
    (serial (Reader.ofTable someMaps prefixFree_someMaps)).run {}
      [.connectDevice true, .readyRead [0xA1, 0x60], .disconnectDevice] =
        { unparsed := [0xA1, 0x60], connecting := 1 } := by
  have hparse : ({ isOpen := true, unparsed := [0xA1, 0x60], connecting := 1 } :
      JadeConnection).parse (Reader.ofTable someMaps prefixFree_someMaps) =
        ({ isOpen := true, unparsed := [0xA1, 0x60], connecting := 1 }, []) :=
    parse_of_more rfl
  simp [serial, handle, connectDevice, disconnectDevice, onDataReceived, hparse]

/-- Of a map of one pair only the key has come; what follows is the empty map. -/
theorem restartsClean_iff_truncated :
    RestartsClean (Reader.ofTable someMaps prefixFree_someMaps)
        (fun word v => (word, v) ∈ someMaps)
        ((serial (Reader.ofTable someMaps prefixFree_someMaps)).run {}
          [.connectDevice true, .readyRead [0xA1, 0x60], .disconnectDevice]) ↔
      OnlyLogs (fun word v => (word, v) ∈ someMaps)
        ((serial (Reader.ofTable someMaps prefixFree_someMaps)).run {}
          [.connectDevice true, .readyRead [0xA1, 0x60], .disconnectDevice]).unparsed :=
  restartsClean_iff _ _ readsOnly_someMaps maps_someMaps _ (by rw [run_truncated])

/-- The key of the old connection and the map of the new one come out as one message. -/
theorem not_restartsClean_truncated :
    let fromCbor := Reader.ofTable someMaps prefixFree_someMaps
    let closed := (serial fromCbor).run {}
      [.connectDevice true, .readyRead [0xA1, 0x60], .disconnectDevice]
    closed.isOpen = false ∧ decoded fromCbor closed [[0xA0]] = [[(.string "", .map [])]] ∧
      decoded fromCbor {} [[0xA0]] = [[]] ∧
      ¬ RestartsClean fromCbor (fun word v => (word, v) ∈ someMaps) closed := by
  intro fromCbor closed
  have hclosed : closed = { unparsed := [0xA1, 0x60], connecting := 1 } := run_truncated
  have hwords : Encoded (fun word v => (word, v) ∈ someMaps) [[0xA0]] [[]] :=
    .cons maps_someMaps.empty .nil
  have hfresh : decoded fromCbor {} [[0xA0]] = [[]] :=
    decoded_of_fresh readsOnly_someMaps.toReads hwords rfl rfl rfl
  have hread : fromCbor.read [0xA1, 0x60, 0xA0] = .item (.map [(.string "", .map [])]) 3 := rfl
  have hold : decoded fromCbor closed [[0xA0]] = [[(.string "", .map [])]] := by
    have hparse : ({ isOpen := true, unparsed := [0xA1, 0x60, 0xA0], connecting := 2 } :
        JadeConnection).parse fromCbor =
          ({ isOpen := true, connecting := 2 },
            [.onNewMessageReceived [(.string "", .map [])]]) := by
      rw [parse_of_map hread, parse_of_empty rfl]
      rfl
    rw [hclosed, decoded, run_connectDevice rfl, List.map_singleton, signals_readyRead_once rfl]
    exact congrArg (fun result => messages result.2) hparse
  refine ⟨by rw [hclosed], hold, hfresh, ?_⟩
  intro hclean
  have hsame := hclean _ _ [[0xA0]] hwords rfl
  rw [hold, hfresh] at hsame
  cases hsame

end JadeConnection
end GreenWallet.Jade
