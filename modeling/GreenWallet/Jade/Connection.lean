import GreenWallet.Library.Reactive
import GreenWallet.Library.Reader

/-!
# The connection to the device

Bytes come in chunks of any size. They are collected until they begin with a CBOR item, and
the maps among the items are passed on as messages. `QCborValue::fromCbor` is a reader, and
what it reads is a parameter. The buffer belongs to the object: it is not touched when the
port is opened or closed.
-/
namespace GreenWallet.Jade
open Library

/-- A CBOR item; numbers with a fraction are known by their bits. -/
inductive QCborValue where
  | integer (value : Int)
  | byteArray (value : List UInt8)
  | string (value : String)
  | array (values : List QCborValue)
  | map (entries : List (QCborValue × QCborValue))
  | tag (tag : UInt64) (value : QCborValue)
  | simpleType (value : UInt8)
  | double (bits : UInt64)

abbrev QCborMap := List (QCborValue × QCborValue)

namespace QCborValue

def isMap : QCborValue → Bool
  | .map _ => true
  | _ => false

def toMap : QCborValue → QCborMap
  | .map entries => entries
  | _ => []

def isString (text : String) : QCborValue → Bool
  | .string value => value == text
  | _ => false

end QCborValue

/-- `contains`, for a key that is a text. -/
def QCborMap.contains (entries : QCborMap) (key : String) : Bool :=
  entries.any fun entry => entry.1.isString key

/-- `QCborValue::fromCbor`, with `err.error` and `err.offset`. -/
abbrev CborReader := Reader UInt8 QCborValue

/-- Which bytes are the encoding of which value. -/
abbrev CborCode := List UInt8 → QCborValue → Prop

structure JadeConnection where
  isOpen : Bool := false
  unparsed : List UInt8 := []
  /-- Timers of `connectDeviceImpl` that have not run out. -/
  connecting : ℕ := 0
deriving DecidableEq

namespace JadeConnection

inductive Signal where
  | onNewMessageReceived (msg : QCborMap)
  | onOpenError
  | onConnected
  | onDisconnected

/-- `QSerialPort::SerialPortError`. -/
inductive PortError where
  | noError
  | deviceNotFound
  | permission
  | openError
  | write
  | read
  | resource
  | unsupportedOperation
  | timeout
  | notOpen
  | unknown
deriving DecidableEq

inductive Event where
  | connectDevice (opens : Bool)
  | disconnectDevice
  | readyRead (data : List UInt8)
  | errorOccurred (error : PortError)
  /-- A timer of `connectDeviceImpl` runs out. -/
  | timeout

def disconnectDevice (connection : JadeConnection) : JadeConnection × List Signal :=
  ({ connection with isOpen := false }, [.onDisconnected])

def connectDevice (opens : Bool) (connection : JadeConnection) : JadeConnection × List Signal :=
  if connection.isOpen then (connection, [])
  else if opens then
    ({ connection with isOpen := true, connecting := connection.connecting + 1 }, [])
  else
    let (connection, signals) := connection.disconnectDevice
    (connection, .onOpenError :: signals)

def errorOccurred (error : PortError) (connection : JadeConnection) :
    JadeConnection × List Signal :=
  if connection.isOpen &&
      (error == .resource || error == .deviceNotFound || error == .permission ||
        error == .notOpen) then
    connection.disconnectDevice
  else (connection, [])

/-- The loop of `onDataReceived`. Lines of the device's log are not passed on. -/
def parse (fromCbor : CborReader) (connection : JadeConnection) : JadeConnection × List Signal :=
  if connection.unparsed.isEmpty then (connection, [])
  else
    match _hread : fromCbor.read connection.unparsed with
    | .more => (connection, [])
    | .malformed => connection.disconnectDevice
    | .item cbor offset =>
        let rest := { connection with unparsed := connection.unparsed.drop offset }
        if cbor.isMap then
          let (connection, signals) := rest.parse fromCbor
          (connection,
            if cbor.toMap.contains "log" then signals
            else .onNewMessageReceived cbor.toMap :: signals)
        else rest.disconnectDevice
termination_by connection.unparsed.length
decreasing_by
  have hoffset := fromCbor.progress _hread
  rw [List.length_drop]
  omega

def onDataReceived (fromCbor : CborReader) (data : List UInt8) (connection : JadeConnection) :
    JadeConnection × List Signal :=
  { connection with unparsed := connection.unparsed ++ data }.parse fromCbor

/-- What a connection does on an event. The slots of the port are connected while it is open. -/
def handle (fromCbor : CborReader) (connection : JadeConnection) :
    Event → JadeConnection × List Signal
  | .connectDevice opens => connection.connectDevice opens
  | .disconnectDevice => connection.disconnectDevice
  | .readyRead data =>
      if connection.isOpen then connection.onDataReceived fromCbor data else (connection, [])
  | .errorOccurred error => connection.errorOccurred error
  | .timeout =>
      if 0 < connection.connecting then
        ({ connection with connecting := connection.connecting - 1 }, [.onConnected])
      else (connection, [])

def serial (fromCbor : CborReader) : Reactive JadeConnection Event Signal where
  enabled := fun _ _ => True
  next := fun connection event => (connection.handle fromCbor event).1
  emits := fun connection event => (connection.handle fromCbor event).2

/-- Chunks passed to `onDataReceived` one after the other. -/
def receive (fromCbor : CborReader) :
    List (List UInt8) → JadeConnection → JadeConnection × List Signal
  | [], connection => (connection, [])
  | chunk :: chunks, connection =>
      let (connection, signals) := connection.onDataReceived fromCbor chunk
      let (connection, rest) := connection.receive fromCbor chunks
      (connection, signals ++ rest)

theorem receive_cons (fromCbor : CborReader) (chunk : List UInt8) (chunks : List (List UInt8))
    (connection : JadeConnection) :
    connection.receive fromCbor (chunk :: chunks) =
      (((connection.onDataReceived fromCbor chunk).1.receive fromCbor chunks).1,
        (connection.onDataReceived fromCbor chunk).2 ++
          ((connection.onDataReceived fromCbor chunk).1.receive fromCbor chunks).2) := rfl

/-- The messages of a stream that are passed on. -/
def passedOn (msgs : List QCborMap) : List QCborMap := msgs.filter fun msg => !msg.contains "log"

/-- The maps and their encodings. -/
abbrev Encoded (code : CborCode) (words : List (List UInt8)) (msgs : List QCborMap) : Prop :=
  List.Forall₂ (fun word msg => code word (.map msg)) words msgs

/-! ## One pass of the loop -/

variable {fromCbor : CborReader} {code : CborCode} {connection : JadeConnection}
variable {cbor : QCborValue} {offset : ℕ} {msg : QCborMap}

theorem parse_of_empty (hunparsed : connection.unparsed = []) :
    connection.parse fromCbor = (connection, []) := by
  rw [parse, hunparsed]
  rfl

theorem parse_of_more (hread : fromCbor.read connection.unparsed = .more) :
    connection.parse fromCbor = (connection, []) := by
  rw [parse]
  split
  · rfl
  · split
    · rfl
    · next h => rw [hread] at h; cases h
    · next h => rw [hread] at h; cases h

theorem unparsed_ne_nil (hread : fromCbor.read connection.unparsed = .item cbor offset) :
    connection.unparsed.isEmpty = false := by
  have hoffset := fromCbor.progress hread
  cases hunparsed : connection.unparsed with
  | nil =>
      rw [hunparsed, List.length_nil] at hoffset
      omega
  | cons => rfl

/-- An item that is found is dropped. -/
theorem parse_of_item (hread : fromCbor.read connection.unparsed = .item cbor offset) :
    connection.parse fromCbor =
      (let rest := { connection with unparsed := connection.unparsed.drop offset }
      if cbor.isMap then
        ((rest.parse fromCbor).1,
          if cbor.toMap.contains "log" then (rest.parse fromCbor).2
          else .onNewMessageReceived cbor.toMap :: (rest.parse fromCbor).2)
      else rest.disconnectDevice) := by
  rw [parse, unparsed_ne_nil hread, if_neg (by simp)]
  split
  · next h => rw [hread] at h; cases h
  · next h => rw [hread] at h; cases h
  · next v n h =>
      rw [hread] at h
      injection h with hvalue hlength
      subst hvalue hlength
      rfl

theorem parse_of_map (hread : fromCbor.read connection.unparsed = .item (.map msg) offset) :
    connection.parse fromCbor =
      (let (rest, signals) :=
        { connection with unparsed := connection.unparsed.drop offset }.parse fromCbor
      (rest, (passedOn [msg]).map .onNewMessageReceived ++ signals)) := by
  rw [parse_of_item hread]
  by_cases hlog : msg.contains "log"
  · simp [QCborValue.isMap, QCborValue.toMap, passedOn, hlog]
  · simp [QCborValue.isMap, QCborValue.toMap, passedOn, hlog]

/-! ## Streams of maps -/

/-- What has been read of a stream of maps ends inside the first map that has not come whole. -/
structure Pending (code : CborCode) (words : List (List UInt8)) (msgs : List QCborMap)
    (unparsed later : List UInt8) : Prop where
  encoded : Encoded code words msgs
  split : unparsed ++ later = words.flatten
  inside : ∀ word ∈ words.head?, unparsed <+: word ∧ unparsed ≠ word

theorem Pending.nil_of_last {words : List (List UInt8)} {msgs : List QCborMap}
    {unparsed : List UInt8} (h : Pending code words msgs unparsed []) :
    unparsed = [] ∧ msgs = [] := by
  have hsplit := h.split
  rw [List.append_nil] at hsplit
  cases h.encoded with
  | nil => exact ⟨hsplit, rfl⟩
  | @cons word msg words msgs _ _ =>
      obtain ⟨hbegin, hne⟩ := h.inside word rfl
      rw [hsplit, List.flatten_cons] at hbegin
      have hlength := (List.prefix_append word words.flatten).length_le
      exact absurd (hsplit.trans (hbegin.eq_of_length_le hlength)) hne

theorem Pending.fresh (hreads : fromCbor.Reads code) {words : List (List UInt8)}
    {msgs : List QCborMap} (hwords : Encoded code words msgs) :
    Pending code words msgs [] words.flatten := by
  refine ⟨hwords, rfl, ?_⟩
  intro word hword
  cases hwords with
  | nil => cases hword
  | cons hcode _ =>
      obtain rfl := Option.some.inj hword
      exact ⟨List.nil_prefix, (hreads.word_ne_nil hcode).symm⟩

/-- The loop takes the maps that are there off the stream. -/
theorem parse_stream (connection : JadeConnection) (hreads : fromCbor.Reads code) {words : List (List UInt8)}
    {msgs : List QCborMap} (hwords : Encoded code words msgs) {front later : List UInt8}
    (hsplit : front ++ later = words.flatten) :
    ∃ passed words' msgs' rest, msgs = passed ++ msgs' ∧ Pending code words' msgs' rest later ∧
      { connection with unparsed := front }.parse fromCbor =
        ({ connection with unparsed := rest }, (passedOn passed).map .onNewMessageReceived) := by
  induction hwords generalizing front with
  | nil =>
      obtain ⟨rfl, rfl⟩ := List.append_eq_nil_iff.mp hsplit
      exact ⟨[], [], [], [], rfl, ⟨.nil, rfl, fun _ hword => by cases hword⟩, parse_of_empty rfl⟩
  | @cons word msg words msgs hcode hwords ih =>
      rw [List.flatten_cons] at hsplit
      obtain ⟨hbegin, hne⟩ | ⟨front', rfl, hrest⟩ := Reader.append_eq_word_append hsplit
      · refine ⟨[], word :: words, msg :: msgs, front, rfl, ⟨.cons hcode hwords, hsplit, ?_⟩,
          parse_of_more (hreads.more_of_prefix hcode hbegin hne)⟩
        intro other hother
        obtain rfl := Option.some.inj hother
        exact ⟨hbegin, hne⟩
      · obtain ⟨passed, words', msgs', rest, hmsgs, hpending, hparse⟩ := ih hrest
        refine ⟨msg :: passed, words', msgs', rest, by rw [hmsgs, List.cons_append], hpending, ?_⟩
        rw [parse_of_map (hreads.item_of_word front' hcode)]
        simp only [List.drop_left, hparse]
        rw [← List.map_append, passedOn, passedOn, ← List.filter_append, List.singleton_append,
          passedOn]

theorem receive_stream (connection : JadeConnection) (hreads : fromCbor.Reads code)
    {words : List (List UInt8)} {msgs : List QCborMap} {chunks : List (List UInt8)}
    (hpending : Pending code words msgs connection.unparsed chunks.flatten) :
    connection.receive fromCbor chunks =
      ({ connection with unparsed := [] }, (passedOn msgs).map .onNewMessageReceived) := by
  induction chunks generalizing connection words msgs with
  | nil =>
      obtain ⟨hunparsed, rfl⟩ := hpending.nil_of_last
      rw [receive, ← hunparsed]
      rfl
  | cons chunk chunks ih =>
      have hsplit := hpending.split
      rw [List.flatten_cons, ← List.append_assoc] at hsplit
      obtain ⟨passed, words', msgs', rest, rfl, hrest, hparse⟩ :=
        parse_stream connection hreads hpending.encoded hsplit
      rw [receive_cons, onDataReceived, hparse]
      simp only [ih { connection with unparsed := rest } hrest]
      rw [← List.map_append, passedOn, passedOn, ← List.filter_append, passedOn]

/-- However a stream of maps is cut into chunks, the same messages are passed on, and nothing
is left over. -/
theorem receive_of_fresh (connection : JadeConnection) (hreads : fromCbor.Reads code)
    {words : List (List UInt8)} {msgs : List QCborMap} (hwords : Encoded code words msgs)
    {chunks : List (List UInt8)} (hchunks : chunks.flatten = words.flatten)
    (hfresh : connection.unparsed = []) :
    connection.receive fromCbor chunks =
      (connection, (passedOn msgs).map .onNewMessageReceived) := by
  have hpending : Pending code words msgs connection.unparsed chunks.flatten := by
    rw [hfresh, hchunks]
    exact Pending.fresh hreads hwords
  rw [receive_stream connection hreads hpending, ← hfresh]

/-- A fresh connection passes on the messages of any stream of maps, in order and without the
lines of the log, however the stream is cut; nothing is left over. -/
theorem onDataReceived_any_chunks (fromCbor : CborReader) (code : CborCode)
    (hreads : fromCbor.Reads code) (words : List (List UInt8)) (msgs : List QCborMap)
    (hwords : Encoded code words msgs) (chunks : List (List UInt8))
    (hchunks : chunks.flatten = words.flatten) (isOpen : Bool) :
    let fresh : JadeConnection := { isOpen := isOpen }
    (fresh.receive fromCbor chunks).2 =
        (msgs.filter fun msg => !msg.contains "log").map .onNewMessageReceived ∧
      (fresh.receive fromCbor chunks).1.unparsed = [] := by
  intro fresh
  rw [receive_of_fresh fresh hreads hwords hchunks rfl]
  exact ⟨rfl, rfl⟩

/-- Four maps: `{}`, `{"": 0}`, `{"": {}}` and a line of the log. -/
def someMaps : List (List UInt8 × QCborValue) :=
  [([0xA0], .map []),
    ([0xA1, 0x60, 0x00], .map [(.string "", .integer 0)]),
    ([0xA1, 0x60, 0xA0], .map [(.string "", .map [])]),
    ([0xA1, 0x63, 0x6C, 0x6F, 0x67, 0x40], .map [(.string "log", .byteArray [])])]

theorem prefixFree_someMaps : Reader.PrefixFree someMaps := by decide

theorem readsOnly_someMaps :
    (Reader.ofTable someMaps prefixFree_someMaps).ReadsOnly fun word v => (word, v) ∈ someMaps :=
  Reader.readsOnly_ofTable prefixFree_someMaps

theorem onDataReceived_any_chunks_some :
    let fromCbor := Reader.ofTable someMaps prefixFree_someMaps
    let fresh : JadeConnection := { isOpen := true }
    let chunks := [[0xA1, 0x63], [0x6C, 0x6F, 0x67, 0x40, 0xA0, 0xA1], [0x60, 0x00]]
    let msgs : List QCborMap :=
      [[(.string "log", .byteArray [])], [], [(.string "", .integer 0)]]
    (fresh.receive fromCbor chunks).2 =
        (msgs.filter fun msg => !msg.contains "log").map .onNewMessageReceived ∧
      (fresh.receive fromCbor chunks).1.unparsed = [] := by
  have hwords : Encoded (fun word v => (word, v) ∈ someMaps)
      [[0xA1, 0x63, 0x6C, 0x6F, 0x67, 0x40], [0xA0], [0xA1, 0x60, 0x00]]
      [[(.string "log", .byteArray [])], [], [(.string "", .integer 0)]] :=
    .cons (by simp [someMaps]) (.cons (by simp [someMaps]) (.cons (by simp [someMaps]) .nil))
  exact onDataReceived_any_chunks _ _ readsOnly_someMaps.toReads _ _ hwords
    [[0xA1, 0x63], [0x6C, 0x6F, 0x67, 0x40, 0xA0, 0xA1], [0x60, 0x00]] rfl true

end JadeConnection
end GreenWallet.Jade
