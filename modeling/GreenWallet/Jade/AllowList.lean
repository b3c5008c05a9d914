import GreenWallet.Library.Keyed
import GreenWallet.Library.Reactive
import GreenWallet.Jade.Variant

/-!
# The hosts the device may contact

A Jade has no network of its own: it asks the wallet to make http requests. The
wallet makes a request for a known host without a question and asks the user about
any other; the user may have the hosts of a request remembered, by their hashes, in
`jade.ini`. A request names any number of urls, and one known host is enough for
all of them.
-/
namespace GreenWallet.Jade
open GreenWallet.Library

/-- The `hash` entries of the `hosts` array in `jade.ini`. -/
abbrev JadeIni := List String

/-- A `QSet<QByteArray>` of hashes; their order says nothing. -/
abbrev AllowedHosts := List (List UInt8)

def hexDigit (n : ℕ) : Char := "0123456789abcdef".toList.getD n '0'

/-- `QByteArray::toHex`. -/
def toHex (bytes : List UInt8) : String :=
  String.ofList (bytes.flatMap fun b => [hexDigit (b.toNat / 16), hexDigit (b.toNat % 16)])

def hexValue (c : Char) : Option ℕ :=
  if '0' ≤ c ∧ c ≤ '9' then some (c.toNat - 48)
  else if 'a' ≤ c ∧ c ≤ 'f' then some (c.toNat - 87)
  else if 'A' ≤ c ∧ c ≤ 'F' then some (c.toNat - 55)
  else none

/-- The digits in reading order from the last one, two of them a byte. -/
def hexBytes : List ℕ → List UInt8
  | [] => []
  | [low] => [UInt8.ofNat low]
  | low :: high :: digits => hexBytes digits ++ [UInt8.ofNat (high * 16 + low)]

/-- `QByteArray::fromHex`: characters that are no digits are skipped. -/
def fromHex (text : String) : List UInt8 := hexBytes (text.toList.filterMap hexValue).reverse

theorem hexValue_hexDigit {n : ℕ} (hn : n < 16) : hexValue (hexDigit n) = some n :=
  (by decide : ∀ n < 16, hexValue (hexDigit n) = some n) n hn

theorem hexBytes_append (low high : ℕ) (digits : List ℕ) :
    hexBytes (low :: high :: digits) = hexBytes digits ++ [UInt8.ofNat (high * 16 + low)] := rfl

theorem fromHex_toHex (bytes : List UInt8) : fromHex (toHex bytes) = bytes := by
  rw [fromHex, toHex, String.toList_ofList]
  induction bytes using List.reverseRecOn with
  | nil => rfl
  | append_singleton bytes b ih =>
      have hhigh : b.toNat / 16 < 16 := by
        have := b.toNat_lt
        omega
      have hlow : b.toNat % 16 < 16 := Nat.mod_lt _ (by decide)
      have hb : UInt8.ofNat (b.toNat / 16 * 16 + b.toNat % 16) = b := by
        rw [Nat.div_add_mod' b.toNat 16, UInt8.ofNat_toNat]
      simp only [List.flatMap_append, List.flatMap_singleton, List.filterMap_append,
        List.filterMap_cons, List.filterMap_nil, hexValue_hexDigit hhigh, hexValue_hexDigit hlow,
        List.reverse_append, List.reverse_cons, List.reverse_nil, List.nil_append,
        List.cons_append, hexBytes_append, ih, hb]

/-- A request of the device, to be made over http. -/
structure JadeHttpRequest where
  params : Fields
  busy : Bool := false
deriving Repr

/-- `QJsonValue::toArray`. -/
def Variant.toArray : Variant → List Variant
  | .list values => values
  | _ => []

/-- `QJsonValue::toString`. -/
def Variant.jsonText : Variant → String
  | .text value => value
  | _ => ""

/-- What a request leads to. -/
inductive HttpOutput where
  /-- `emit httpRequest(request)`: the user is asked. -/
  | httpRequest (request : JadeHttpRequest)
  | connectTask
  | httpRequestTask (params : Fields)
  | accepted (remember : Bool)
  | rejected
  | finished (response : Fields)
deriving Repr

structure JadeController where
  jadeIni : JadeIni := []
  /-- The requests the user has been asked about and has not answered. -/
  asked : List (ℕ × JadeHttpRequest) := []
  requests : ℕ := 0

inductive HttpEvent where
  | httpRequest (params : Fields)
  | accept (request : ℕ) (remember : Bool)
  | reject (request : ℕ)

section
variable (sha256 : List UInt8 → List UInt8) (authority : String → String)

def hashOf (host : String) : List UInt8 := sha256 host.toUTF8.data.toList

namespace AllowedHosts

def isHostAllowed (allowed : AllowedHosts) (host : String) : Bool :=
  if host = "jadepin.blockstream.com" then true
  else if host = "j8d.io" then true
  else allowed.contains (hashOf sha256 host)

def allowHost (allowed : AllowedHosts) (host : String) : AllowedHosts :=
  allowed.insert (hashOf sha256 host)

end AllowedHosts

namespace JadeIni

def allowedHosts (ini : JadeIni) : AllowedHosts :=
  ini.foldl (fun allowed hash => allowed.insert (fromHex hash)) []

/-- The loop of `IsHostAllowed`, with its early return. -/
def isHostAllowed (ini : JadeIni) (hosts : List String) : Bool :=
  let allowed := ini.allowedHosts
  go allowed hosts
where
  go (allowed : AllowedHosts) : List String → Bool
    | [] => false
    | host :: hosts => if allowed.isHostAllowed sha256 host then true else go allowed hosts

def allowHost (ini : JadeIni) (hosts : List String) : JadeIni :=
  let allowed := hosts.foldl (fun allowed host => allowed.allowHost sha256 host) ini.allowedHosts
  allowed.map toHex

end JadeIni

namespace JadeHttpRequest

def hosts (request : JadeHttpRequest) : List String :=
  (request.params.value "urls").toArray.map fun url => authority url.jsonText

def accept (remember : Bool) (request : JadeHttpRequest) : JadeHttpRequest × List HttpOutput :=
  ({ request with busy := true },
    [.connectTask, .httpRequestTask request.params, .accepted remember])

def reject (_request : JadeHttpRequest) : List HttpOutput := [.rejected, .finished []]

end JadeHttpRequest

namespace JadeController

def handleHttpRequest (params : Fields) (c : JadeController) :
    JadeController × List HttpOutput :=
  let request : JadeHttpRequest := { params := params }
  if c.jadeIni.isHostAllowed sha256 (request.hosts authority) then
    ({ c with requests := c.requests + 1 }, (request.accept false).2)
  else
    ({ c with
        requests := c.requests + 1
        asked := c.asked ++ [(c.requests, request)] },
      [.httpRequest request])

/-- The dialog closes with the answer of the user. -/
def answer (id : ℕ) (remember : Bool) (request : JadeHttpRequest) (c : JadeController) :
    JadeController × List HttpOutput :=
  ({ c with
      asked := c.asked.filter fun entry => entry.1 != id
      jadeIni :=
        if remember then c.jadeIni.allowHost sha256 (request.hosts authority) else c.jadeIni },
    (request.accept remember).2)

def handle (c : JadeController) : HttpEvent → JadeController × List HttpOutput
  | .httpRequest params => c.handleHttpRequest sha256 authority params
  | .accept id remember =>
      match c.asked.lookup id with
      | none => (c, [])
      | some request => c.answer sha256 authority id remember request
  | .reject id =>
      match c.asked.lookup id with
      | none => (c, [])
      | some request =>
          ({ c with asked := c.asked.filter fun entry => entry.1 != id }, request.reject)

end JadeController

/-- The wallet as the device and the user see it. -/
def oracle : Reactive JadeController HttpEvent HttpOutput where
  enabled := fun c e =>
    match e with
    | .httpRequest _ => True
    | .accept id _ | .reject id => (c.asked.lookup id).isSome
  next := fun c e => (c.handle sha256 authority e).1
  emits := fun c e => (c.handle sha256 authority e).2

variable {sha256 authority}

theorem JadeIni.isHostAllowed_iff (ini : JadeIni) (hosts : List String) :
    ini.isHostAllowed sha256 hosts = true ↔
      ∃ host ∈ hosts, ini.allowedHosts.isHostAllowed sha256 host = true := by
  unfold JadeIni.isHostAllowed
  induction hosts with
  | nil => simp [JadeIni.isHostAllowed.go]
  | cons host hosts ih =>
      simp only [JadeIni.isHostAllowed.go, List.exists_mem_cons_iff]
      split_ifs with hhost
      · simp [hhost]
      · simpa [hhost] using ih

theorem AllowedHosts.isHostAllowed_iff (allowed : AllowedHosts) (host : String) :
    allowed.isHostAllowed sha256 host = true ↔
      host = "jadepin.blockstream.com" ∨ host = "j8d.io" ∨ hashOf sha256 host ∈ allowed := by
  unfold AllowedHosts.isHostAllowed
  split_ifs with hpin hshort
  · simp [hpin]
  · simp [hshort]
  · simp [hpin, hshort]

theorem mem_foldl_insert {α : Type*} (f : α → List UInt8) (hash : List UInt8) (xs : List α)
    (allowed : AllowedHosts) :
    hash ∈ xs.foldl (fun allowed x => allowed.insert (f x)) allowed ↔
      hash ∈ allowed ∨ ∃ x ∈ xs, f x = hash := by
  have hround (allowed : AllowedHosts) (x : α) :
      hash ∈ allowed.insert (f x) ↔ f x = hash ∨ hash ∈ allowed := by
    rw [List.mem_insert_iff, eq_comm]
  rw [or_comm]
  exact Keyed.foldl_gains (fun allowed : AllowedHosts => hash ∈ allowed) hround xs allowed

theorem JadeIni.mem_allowedHosts (ini : JadeIni) (hash : List UInt8) :
    hash ∈ ini.allowedHosts ↔ ∃ entry ∈ ini, fromHex entry = hash := by
  unfold JadeIni.allowedHosts
  rw [mem_foldl_insert]
  simp

/-- Remembering hosts adds their hashes to those read back from the file. -/
theorem JadeIni.mem_allowedHosts_allowHost (ini : JadeIni) (hosts : List String)
    (hash : List UInt8) :
    hash ∈ (ini.allowHost sha256 hosts).allowedHosts ↔
      hash ∈ ini.allowedHosts ∨ ∃ host ∈ hosts, hashOf sha256 host = hash := by
  rw [JadeIni.mem_allowedHosts, ← mem_foldl_insert (hashOf sha256)]
  simp only [JadeIni.allowHost, AllowedHosts.allowHost, List.mem_map, exists_exists_and_eq_and,
    fromHex_toHex, exists_eq_right]

namespace JadeController

variable (sha256) in
/-- Built into the wallet, or remembered. -/
def Known (c : JadeController) (host : String) : Prop :=
  host = "jadepin.blockstream.com" ∨ host = "j8d.io" ∨
    hashOf sha256 host ∈ c.jadeIni.allowedHosts

/-- What the user has remembered is what the user chose to. -/
theorem handle_known (c : JadeController) (e : HttpEvent) (host : String) :
    (c.handle sha256 authority e).1.Known sha256 host ↔
      c.Known sha256 host ∨ ∃ id request, e = .accept id true ∧ c.asked.lookup id = some request ∧
        ∃ other ∈ request.hosts authority, hashOf sha256 other = hashOf sha256 host := by
  cases e with
  | httpRequest params =>
      simp only [handle, handleHttpRequest, reduceCtorEq, false_and, exists_false, or_false]
      split_ifs <;> rfl
  | reject id =>
      simp only [handle, reduceCtorEq, false_and, exists_false, or_false]
      split <;> rfl
  | accept id remember =>
      simp only [handle]
      cases hasked : c.asked.lookup id with
      | none => simp [hasked]
      | some request =>
          cases remember with
          | false => simp [answer, Known]
          | true =>
              simp only [answer, Known, if_true, JadeIni.mem_allowedHosts_allowHost,
                HttpEvent.accept.injEq, and_true]
              constructor
              · rintro (h | h | h | h)
                · exact .inl (.inl h)
                · exact .inl (.inr (.inl h))
                · exact .inl (.inr (.inr h))
                · exact .inr ⟨id, request, rfl, hasked, h⟩
              · rintro ((h | h | h) | ⟨_, _, rfl, hlookup, h⟩)
                · exact .inl h
                · exact .inr (.inl h)
                · exact .inr (.inr (.inl h))
                · rw [hasked, Option.some.injEq] at hlookup
                  rw [hlookup] at *
                  exact .inr (.inr (.inr h))

end JadeController

variable (sha256 authority)

/-- The request is made without a question to the user. -/
def AcceptsSilently (c : JadeController) (params : Fields) : Prop :=
  .httpRequestTask params ∈ (oracle sha256 authority).emits c (.httpRequest params)

def hostsOf (params : Fields) : List String :=
  ({ params := params } : JadeHttpRequest).hosts authority

def addUrl (url : String) (params : Fields) : Fields :=
  params.insert "urls" (.list ((params.value "urls").toArray ++ [.text url]))

/-- A request is made without a question only if all its hosts are known. -/
def AsksAboutUnknown (c : JadeController) (e : HttpEvent) : Prop :=
  ∀ params, e = .httpRequest params → AcceptsSilently sha256 authority c params →
    ∀ host ∈ hostsOf authority params, c.Known sha256 host

/-- No host of a request is known, or all are. -/
def KnowsNoneOrAll (c : JadeController) (e : HttpEvent) : Prop :=
  ∀ params, e = .httpRequest params →
    (∀ host ∈ hostsOf authority params, ¬ c.Known sha256 host) ∨
      ∀ host ∈ hostsOf authority params, c.Known sha256 host

variable {sha256 authority}

theorem acceptsSilently_iff (c : JadeController) (params : Fields) :
    AcceptsSilently sha256 authority c params ↔
      ∃ host ∈ hostsOf authority params, c.Known sha256 host := by
  have hknown : c.jadeIni.isHostAllowed sha256 (hostsOf authority params) = true ↔
      ∃ host ∈ hostsOf authority params, c.Known sha256 host := by
    simp only [JadeIni.isHostAllowed_iff, AllowedHosts.isHostAllowed_iff, JadeController.Known]
  rw [← hknown]
  simp only [AcceptsSilently, oracle, JadeController.handle, JadeController.handleHttpRequest,
    hostsOf]
  split_ifs with hallowed <;> simp [JadeHttpRequest.accept, hallowed]

theorem hostsOf_addUrl (url : String) (params : Fields) :
    hostsOf authority (addUrl url params) = hostsOf authority params ++ [authority url] := by
  simp [hostsOf, addUrl, JadeHttpRequest.hosts, Variant.toArray, Variant.jsonText]

/-- **Silent requests.** Along a run the user is asked about every request with an
unknown host exactly if no request has both known and unknown ones; and a request
that gets one more url, with an unknown host, is not made silently exactly if it
had no known host. -/
theorem asksAboutUnknown_iff :
    (∀ c es, (oracle sha256 authority).Along (AsksAboutUnknown sha256 authority) c es ↔
      (oracle sha256 authority).Along (KnowsNoneOrAll sha256 authority) c es) ∧
    ∀ (c : JadeController) params url, ¬ c.Known sha256 (authority url) →
      (¬ AcceptsSilently sha256 authority c (addUrl url params) ↔
        ∀ host ∈ hostsOf authority params, ¬ c.Known sha256 host) := by
  constructor
  · intro c es
    apply Reactive.along_iff_along
    intro c e
    apply forall₂_congr
    intro params _
    rw [acceptsSilently_iff]
    constructor
    · intro h
      by_cases hknown : ∃ host ∈ hostsOf authority params, c.Known sha256 host
      · exact .inr (h hknown)
      · exact .inl fun host hmem hhost => hknown ⟨host, hmem, hhost⟩
    · rintro (hnone | hall) ⟨host, hmem, hhost⟩
      · exact (hnone host hmem hhost).elim
      · exact hall
  · intro c params url hurl
    rw [acceptsSilently_iff, hostsOf_addUrl]
    constructor
    · intro h host hmem hhost
      exact h ⟨host, List.mem_append_left _ hmem, hhost⟩
    · intro h ⟨host, hmem, hhost⟩
      rcases List.mem_append.mp hmem with hmem | hmem
      · exact h host hmem hhost
      · rw [List.mem_singleton.mp hmem] at hhost
        exact hurl hhost

/-- The authorities of two urls. -/
def sampleAuthority : String → String
  | "https://jadepin.blockstream.com/start_handshake" => "jadepin.blockstream.com"
  | "https://example.com/collect" => "example.com"
  | _ => ""

/-- The hash of the one host that is looked up. -/
def sampleSha256 (bytes : List UInt8) : List UInt8 :=
  if bytes = "example.com".toUTF8.data.toList then
    fromHex "a379a6f6eeafb9a55e378c118034e2751e682fab9f2d30ab13d2125586ce1947"
  else []

/-- One url of the default oracle, one of somebody else. -/
def mixedRequest : Fields :=
  [("urls", .list [.text "https://jadepin.blockstream.com/start_handshake",
    .text "https://example.com/collect"])]

/-- A url of the default oracle, and no other. -/
def defaultRequest : Fields :=
  [("urls", .list [.text "https://jadepin.blockstream.com/start_handshake"])]

theorem asksAboutUnknown_iff_defaultRequest :
    ((oracle sampleSha256 sampleAuthority).Along
        (AsksAboutUnknown sampleSha256 sampleAuthority) {} [.httpRequest defaultRequest] ↔
      (oracle sampleSha256 sampleAuthority).Along
        (KnowsNoneOrAll sampleSha256 sampleAuthority) {} [.httpRequest defaultRequest]) ∧
    (¬ AcceptsSilently sampleSha256 sampleAuthority {}
        (addUrl "https://example.com/collect" defaultRequest) ↔
      ∀ host ∈ hostsOf sampleAuthority defaultRequest,
        ¬ JadeController.Known sampleSha256 {} host) := by
  have hunknown : ¬ JadeController.Known sampleSha256 {}
      (sampleAuthority "https://example.com/collect") := by
    simp [JadeController.Known, sampleAuthority, JadeIni.allowedHosts]
  constructor
  · exact asksAboutUnknown_iff.1 {} [.httpRequest defaultRequest]
  · exact asksAboutUnknown_iff.2 {} defaultRequest "https://example.com/collect" hunknown

theorem not_asksAboutUnknown_mixedRequest :
    ¬ (oracle sampleSha256 sampleAuthority).Along
      (AsksAboutUnknown sampleSha256 sampleAuthority) {} [.httpRequest mixedRequest] := by
  intro h
  have hhosts : hostsOf sampleAuthority mixedRequest =
      ["jadepin.blockstream.com", "example.com"] := by decide
  have hsilent : AcceptsSilently sampleSha256 sampleAuthority {} mixedRequest := by
    apply (acceptsSilently_iff {} mixedRequest).mpr
    rw [hhosts]
    exact ⟨_, List.mem_cons_self, .inl rfl⟩
  have hknown := h.1 mixedRequest rfl hsilent "example.com" (by rw [hhosts]; simp)
  simp [JadeController.Known, JadeIni.allowedHosts] at hknown

end
end GreenWallet.Jade
