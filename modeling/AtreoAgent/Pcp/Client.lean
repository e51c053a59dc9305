import AtreoAgent.Codec.Buffer
import AtreoAgent.Net.IP

/-! The client of the Port Control Protocol (package `pcp`): one MAP request, sent at most
twice, and the replies to it. Anyone may send datagrams to the socket, so a reply counts
only if it is an error of the MAP operation or repeats the nonce of the request. -/
namespace Pcp

open Codec Net

def protocolVersion : UInt8 := 2

def opcodeMap : UInt8 := 1

def responseBit : UInt8 := 0x80

def headerLen : Nat := 24

def mapDataLen : Nat := 36

def msgLen : Nat := headerLen + mapDataLen

def resultSuccess : UInt8 := 0

def resultUnsuppVersion : UInt8 := 1

def resultName (code : UInt8) : String :=
  match code.toNat with
  | 0 => "SUCCESS"
  | 1 => "UNSUPP_VERSION"
  | 2 => "NOT_AUTHORIZED"
  | 3 => "MALFORMED_REQUEST"
  | 4 => "UNSUPP_OPCODE"
  | 5 => "UNSUPP_OPTION"
  | 6 => "MALFORMED_OPTION"
  | 7 => "NETWORK_FAILURE"
  | 8 => "NO_RESOURCES"
  | 9 => "UNSUPP_PROTOCOL"
  | 10 => "USER_EX_QUOTA"
  | 11 => "CANNOT_PROVIDE_EXTERNAL"
  | 12 => "ADDRESS_MISMATCH"
  | 13 => "EXCESSIVE_REMOTE_PEERS"
  | _ => "UNKNOWN"

def unsupportedVersion : String := "pcp: gateway does not support PCP (UNSUPP_VERSION)"

structure Nonce where
  bytes : Bytes
  size : bytes.length = 12
  deriving DecidableEq

structure Mapping where
  externalIP : Bytes
  externalPort : UInt16
  lifetime : UInt32
  deriving DecidableEq

/-- The parameters of a request. An address is a slice of any length, nil if empty. -/
structure Request where
  clientAddr : Bytes
  suggestedExternalIP : Bytes
  proto : UInt8
  internalPort : UInt16
  suggestedExternalPort : UInt16
  lifetime : UInt32
  nonce : Nonce
  deriving DecidableEq

/-- Sixteen octets, all zero for what is not an address. -/
def to16 (ip : Bytes) : Bytes :=
  if ip.length = 4 then ofV4 ip else if ip.length = 16 then ip else List.replicate 16 0

def normalizeIP (ip : Bytes) : Bytes :=
  if ip.length = 4 then ip else if ip.length = 16 then (Net.to4 ip).getD ip else ip

def putUint16 (n : UInt16) : Bytes := bigEndian 2 n.toNat

def putUint32 (n : UInt32) : Bytes := bigEndian 4 n.toNat

def uint16 (bs : Bytes) : UInt16 := UInt16.ofNat (ofBigEndian bs)

def uint32 (bs : Bytes) : UInt32 := UInt32.ofNat (ofBigEndian bs)

def encodeMapRequest (r : Request) : Bytes :=
  let b := List.replicate msgLen 0
  let b := write b 0 [protocolVersion]
  let b := write b 1 [opcodeMap]
  let b := write b 4 (putUint32 r.lifetime)
  let b := write b 8 (to16 r.clientAddr)
  let b := write b 24 r.nonce.bytes
  let b := write b 36 [r.proto]
  let b := write b 40 (putUint16 r.internalPort)
  let b := write b 42 (putUint16 r.suggestedExternalPort)
  write b 44 (to16 r.suggestedExternalIP)

/-- What a packet says to the request with the nonce, if it is a reply to it. The error of a
packet need not repeat the nonce. -/
def parseMapResponse (pkt : Bytes) (nonce : Nonce) : Option (Except String Mapping) :=
  if pkt.length < headerLen ∨ pkt.getD 0 0 ≠ protocolVersion then none
  else if pkt.getD 1 0 &&& responseBit = 0 ∨ pkt.getD 1 0 &&& ~~~responseBit ≠ opcodeMap then none
  else
    let result := pkt.getD 3 0
    let lifetime := uint32 (slice pkt 4 8)
    if result ≠ resultSuccess then
      if result = resultUnsuppVersion then some (.error unsupportedVersion)
      else some (.error ("pcp: MAP rejected (" ++ resultName result ++ ", result code " ++
        toString result.toNat ++ ")"))
    else if pkt.length < msgLen then none
    else
      let body := pkt.drop headerLen
      if slice body 0 12 ≠ nonce.bytes then none
      else some (.ok ⟨normalizeIP (slice body 20 36), uint16 (slice body 18 20), lifetime⟩)

/-- One turn of the loop of `RequestMapping`: whether the context is done, whether the request
could be written, and the datagrams that arrive before reading fails. -/
structure Attempt where
  cancelled : Option String
  writeError : Option String
  datagrams : List Bytes

/-- The requests sent, and the result. -/
structure Outcome where
  sent : List Bytes
  result : Except String Mapping

/-- The size of the buffer a datagram is read into; the rest of a longer one is lost. -/
def bufferLen : Nat := 1100

/-- Read until a packet is a reply. -/
def drain (nonce : Nonce) (datagrams : List Bytes) : Option (Except String Mapping) :=
  datagrams.findSome? fun d => parseMapResponse (d.take bufferLen) nonce

def exchange (server : String) (req : Bytes) (nonce : Nonce) : List Attempt → Outcome
  | [] => ⟨[], .error ("pcp: " ++ server ++ ": no response")⟩
  | a :: rest =>
      match a.cancelled, a.writeError with
      | some cause, _ => ⟨[], .error cause⟩
      | none, some cause => ⟨[], .error ("pcp: write " ++ server ++ ": " ++ cause)⟩
      | none, none =>
          match drain nonce a.datagrams with
          | some result => ⟨[req], result⟩
          | none =>
              let later := exchange server req nonce rest
              ⟨req :: later.sent, later.result⟩

/-- `RequestMapping`, with one attempt for each of its two time limits. -/
def requestMapping (server : String) (r : Request) (dialError : Option String)
    (first second : Attempt) : Outcome :=
  match dialError with
  | some cause => ⟨[], .error ("pcp: dial " ++ server ++ ": " ++ cause)⟩
  | none => exchange server (encodeMapRequest r) r.nonce [first, second]

section Layout

@[simp] theorem length_to16 (ip : Bytes) : (to16 ip).length = 16 := by
  rw [to16]
  split_ifs with hQuad hLong
  · rw [ofV4, List.length_append, hQuad]
    rfl
  · exact hLong
  · exact List.length_replicate

theorem putUint16_injective {m n : UInt16} (h : putUint16 m = putUint16 n) : m = n := by
  have hNumber := congrArg ofBigEndian h
  rw [putUint16, putUint16, ofBigEndian_bigEndian m.toNat_lt, ofBigEndian_bigEndian n.toNat_lt]
    at hNumber
  exact UInt16.toNat_inj.mp hNumber

theorem putUint32_injective {m n : UInt32} (h : putUint32 m = putUint32 n) : m = n := by
  have hNumber := congrArg ofBigEndian h
  rw [putUint32, putUint32, ofBigEndian_bigEndian m.toNat_lt, ofBigEndian_bigEndian n.toNat_lt]
    at hNumber
  exact UInt32.toNat_inj.mp hNumber

/-- Where the fields of a request stand. -/
theorem encodeMapRequest_layout (r : Request) :
    slice (encodeMapRequest r) 4 8 = putUint32 r.lifetime ∧
    slice (encodeMapRequest r) 8 24 = to16 r.clientAddr ∧
    slice (encodeMapRequest r) 24 36 = r.nonce.bytes ∧
    slice (encodeMapRequest r) 36 37 = [r.proto] ∧
    slice (encodeMapRequest r) 40 42 = putUint16 r.internalPort ∧
    slice (encodeMapRequest r) 42 44 = putUint16 r.suggestedExternalPort ∧
    slice (encodeMapRequest r) 44 60 = to16 r.suggestedExternalIP := by
  have hLong : (List.replicate msgLen (0 : UInt8)).length = 60 := rfl
  have hLifetime : (putUint32 r.lifetime).length = 4 := length_bigEndian 4 _
  have hInternal : (putUint16 r.internalPort).length = 2 := length_bigEndian 2 _
  have hExternal : (putUint16 r.suggestedExternalPort).length = 2 := length_bigEndian 2 _
  refine ⟨?_, ?_, ?_, ?_, ?_, ?_, ?_⟩ <;>
    simp [encodeMapRequest, slice_write, slice_write_below, r.nonce.size, hLong, hLifetime,
      hInternal, hExternal]

/-- The bytes of a request determine its fields, an address up to its long form. -/
theorem fields_of_encodeMapRequest {r s : Request} (h : encodeMapRequest r = encodeMapRequest s) :
    to16 r.clientAddr = to16 s.clientAddr ∧
    to16 r.suggestedExternalIP = to16 s.suggestedExternalIP ∧
    r.proto = s.proto ∧ r.internalPort = s.internalPort ∧
    r.suggestedExternalPort = s.suggestedExternalPort ∧ r.lifetime = s.lifetime ∧
    r.nonce = s.nonce := by
  obtain ⟨hLifetime, hClient, hNonce, hProto, hInternal, hExternal, hSuggested⟩ :=
    encodeMapRequest_layout s
  rw [← h] at hLifetime hClient hNonce hProto hInternal hExternal hSuggested
  obtain ⟨hLifetime', hClient', hNonce', hProto', hInternal', hExternal', hSuggested'⟩ :=
    encodeMapRequest_layout r
  have hSameNonce : r.nonce.bytes = s.nonce.bytes := hNonce'.symm.trans hNonce
  refine ⟨hClient'.symm.trans hClient, hSuggested'.symm.trans hSuggested, ?_,
    putUint16_injective (hInternal'.symm.trans hInternal),
    putUint16_injective (hExternal'.symm.trans hExternal),
    putUint32_injective (hLifetime'.symm.trans hLifetime), ?_⟩
  · exact List.singleton_inj.mp (hProto'.symm.trans hProto)
  · cases hr : r.nonce
    cases hs : s.nonce
    simpa [hr, hs] using hSameNonce

end Layout

/-- A response of version 2 to a MAP request. -/
def MapResponse (d : Bytes) : Prop := headerLen ≤ d.length ∧ d.getD 0 0 = 2 ∧ d.getD 1 0 = 0x81

def MapError (d : Bytes) : Prop := MapResponse d ∧ d.getD 3 0 ≠ 0

/-- A response that grants the mapping of the nonce. -/
def MapSuccess (nonce : Nonce) (d : Bytes) : Prop :=
  MapResponse d ∧ d.getD 3 0 = 0 ∧ 60 ≤ d.length ∧ slice d 24 36 = nonce.bytes

instance (d : Bytes) : Decidable (MapResponse d) := inferInstanceAs (Decidable (_ ∧ _))

instance (d : Bytes) : Decidable (MapError d) := inferInstanceAs (Decidable (_ ∧ _))

instance (nonce : Nonce) (d : Bytes) : Decidable (MapSuccess nonce d) :=
  inferInstanceAs (Decidable (_ ∧ _))

/-- The mapping a response grants. -/
def mappingOf (d : Bytes) : Mapping :=
  ⟨normalizeIP (slice d 44 60), uint16 (slice d 42 44), uint32 (slice d 4 8)⟩

section Replies

variable {nonce : Nonce} {d : Bytes}

theorem opcode_iff (b : UInt8) :
    (b &&& responseBit = 0 ∨ b &&& ~~~responseBit ≠ opcodeMap) ↔ b ≠ 0x81 := by
  have hAll : ∀ i : Fin 256, (UInt8.ofNat i.val &&& responseBit = 0 ∨
      UInt8.ofNat i.val &&& ~~~responseBit ≠ opcodeMap) ↔ UInt8.ofNat i.val ≠ 0x81 := by
    decide +kernel
  simpa using hAll ⟨b.toNat, b.toNat_lt⟩

theorem getD_take {n k : Nat} (h : k < n) (d : Bytes) : (d.take n).getD k 0 = d.getD k 0 := by
  rw [List.getD_eq_getElem?_getD, List.getElem?_take_of_lt h, ← List.getD_eq_getElem?_getD]

/-- What the buffer cuts off is not looked at. -/
theorem parseMapResponse_take (d : Bytes) (nonce : Nonce) :
    parseMapResponse (d.take bufferLen) nonce = parseMapResponse d nonce := by
  have hLength : ∀ n ≤ bufferLen, ((d.take bufferLen).length < n ↔ d.length < n) := by
    intro n hn
    rw [List.length_take]
    omega
  have hByte : ∀ k < bufferLen, (d.take bufferLen).getD k 0 = d.getD k 0 := by
    intro k hk
    exact getD_take hk d
  have hSlice : ∀ i, ∀ j ≤ bufferLen, slice (d.take bufferLen) i j = slice d i j := by
    intro i j hj
    exact slice_take hj
  simp only [parseMapResponse, slice_drop, hLength headerLen (by decide), hLength msgLen (by decide),
    hByte 0 (by decide), hByte 1 (by decide), hByte 3 (by decide), hSlice 4 8 (by decide),
    hSlice (headerLen + 0) (headerLen + 12) (by decide),
    hSlice (headerLen + 18) (headerLen + 20) (by decide),
    hSlice (headerLen + 20) (headerLen + 36) (by decide)]

theorem parseMapResponse_of_not_response (h : ¬MapResponse d) : parseMapResponse d nonce = none := by
  rw [parseMapResponse]
  by_cases hHeader : d.length < headerLen ∨ d.getD 0 0 ≠ protocolVersion
  · rw [if_pos hHeader]
  · have hOpcode : d.getD 1 0 ≠ 0x81 := by
      intro hMap
      rw [not_or, not_lt, not_not] at hHeader
      exact h ⟨hHeader.1, hHeader.2, hMap⟩
    rw [if_neg hHeader, if_pos ((opcode_iff _).mpr hOpcode)]

/-- A response is judged by its result, its length and its nonce. -/
theorem parseMapResponse_of_response (h : MapResponse d) :
    parseMapResponse d nonce =
      if d.getD 3 0 ≠ 0 then
        if d.getD 3 0 = resultUnsuppVersion then some (.error unsupportedVersion)
        else some (.error ("pcp: MAP rejected (" ++ resultName (d.getD 3 0) ++ ", result code " ++
          toString (d.getD 3 0).toNat ++ ")"))
      else if d.length < 60 then none
      else if slice d 24 36 ≠ nonce.bytes then none
      else some (.ok (mappingOf d)) := by
  obtain ⟨hLength, hVersion, hOpcode⟩ := h
  have hHeader : ¬(d.length < headerLen ∨ d.getD 0 0 ≠ protocolVersion) :=
    not_or.mpr ⟨not_lt.mpr hLength, not_not.mpr hVersion⟩
  have hMap : ¬(d.getD 1 0 &&& responseBit = 0 ∨ d.getD 1 0 &&& ~~~responseBit ≠ opcodeMap) := by
    rw [opcode_iff, not_not]
    exact hOpcode
  rw [parseMapResponse, if_neg hHeader, if_neg hMap]
  simp only [slice_drop]
  rfl

theorem parse_of_mapError (h : MapError d) (nonce : Nonce) :
    ∃ cause, parseMapResponse d nonce = some (.error cause) := by
  rw [parseMapResponse_of_response h.1, if_pos h.2]
  split
  · exact ⟨_, rfl⟩
  · exact ⟨_, rfl⟩

theorem parse_of_mapSuccess (h : MapSuccess nonce d) :
    parseMapResponse d nonce = some (.ok (mappingOf d)) := by
  obtain ⟨hResponse, hResult, hLength, hNonce⟩ := h
  rw [parseMapResponse_of_response hResponse, if_neg (not_not.mpr hResult),
    if_neg (not_lt.mpr hLength), if_neg (not_not.mpr hNonce)]

theorem parse_of_other (hError : ¬MapError d) (hSuccess : ¬MapSuccess nonce d) :
    parseMapResponse d nonce = none := by
  by_cases hResponse : MapResponse d
  · have hResult : d.getD 3 0 = 0 := by
      by_contra hCode
      exact hError ⟨hResponse, hCode⟩
    rw [parseMapResponse_of_response hResponse, if_neg (not_not.mpr hResult)]
    by_cases hLength : d.length < 60
    · rw [if_pos hLength]
    · have hNonce : slice d 24 36 ≠ nonce.bytes := by
        intro hSame
        exact hSuccess ⟨hResponse, hResult, not_lt.mp hLength, hSame⟩
      rw [if_neg hLength, if_pos hNonce]
  · exact parseMapResponse_of_not_response hResponse

/-- A packet grants a mapping only by being a success for the nonce. -/
theorem parse_eq_ok {m : Mapping} (h : parseMapResponse d nonce = some (.ok m)) :
    MapSuccess nonce d ∧ m = mappingOf d := by
  by_cases hError : MapError d
  · obtain ⟨cause, hCause⟩ := parse_of_mapError hError nonce
    rw [hCause] at h
    cases h
  by_cases hSuccess : MapSuccess nonce d
  · rw [parse_of_mapSuccess hSuccess] at h
    cases h
    exact ⟨hSuccess, rfl⟩
  · rw [parse_of_other hError hSuccess] at h
    cases h

/-- A packet that is passed over is no success for the nonce. -/
theorem parse_eq_none (h : parseMapResponse d nonce = none) : ¬MapSuccess nonce d := by
  intro hSuccess
  rw [parse_of_mapSuccess hSuccess] at h
  cases h

theorem drain_eq (nonce : Nonce) (datagrams : List Bytes) :
    drain nonce datagrams = datagrams.findSome? fun d => parseMapResponse d nonce := by
  simp only [drain, parseMapResponse_take]

theorem drain_eq_ok {datagrams : List Bytes} {m : Mapping} (h : drain nonce datagrams = some (.ok m)) :
    ∃ d, datagrams.find? (MapSuccess nonce ·) = some d ∧ m = mappingOf d := by
  rw [drain_eq, List.findSome?_eq_some_iff] at h
  obtain ⟨before, d, after, rfl, hFound, hBefore⟩ := h
  obtain ⟨hSuccess, hMapping⟩ := parse_eq_ok hFound
  have hNone : before.find? (MapSuccess nonce ·) = none := by
    rw [List.find?_eq_none]
    intro e he hGranted
    exact parse_eq_none (hBefore e he) (of_decide_eq_true hGranted)
  refine ⟨d, ?_, hMapping⟩
  rw [List.find?_append, hNone, Option.none_or]
  exact List.find?_cons_of_pos (by simpa using hSuccess)

theorem drain_eq_none {datagrams : List Bytes} (h : drain nonce datagrams = none) :
    datagrams.find? (MapSuccess nonce ·) = none := by
  rw [drain_eq, List.findSome?_eq_none_iff] at h
  rw [List.find?_eq_none]
  intro d hd hGranted
  exact parse_eq_none (h d hd) (of_decide_eq_true hGranted)

/-- A datagram that counts: an error, or a success for the nonce. -/
def Counts (nonce : Nonce) (d : Bytes) : Bool := MapError d ∨ MapSuccess nonce d

/-- Reading skips what does not count. -/
theorem drain_filter (nonce : Nonce) (datagrams : List Bytes) :
    drain nonce (datagrams.filter (Counts nonce)) = drain nonce datagrams := by
  rw [drain_eq, drain_eq]
  induction datagrams with
  | nil => rfl
  | cons d datagrams ih =>
      by_cases hCounts : Counts nonce d = true
      · rw [List.filter_cons_of_pos hCounts, List.findSome?_cons, List.findSome?_cons, ih]
      · have hNot := hCounts
        rw [Counts, decide_eq_true_iff, not_or] at hNot
        rw [List.filter_cons_of_neg hCounts, ih, List.findSome?_cons, parse_of_other hNot.1 hNot.2]

end Replies

/-- The attempt with only the datagrams that count. -/
def Attempt.filtered (nonce : Nonce) (a : Attempt) : Attempt :=
  { a with datagrams := a.datagrams.filter (Counts nonce) }

section Exchange

variable {server : String} {req : Bytes} {nonce : Nonce}

theorem exchange_eq_ok {attempts : List Attempt} {m : Mapping}
    (h : (exchange server req nonce attempts).result = .ok m) :
    ∃ d, (attempts.flatMap (·.datagrams)).find? (MapSuccess nonce ·) = some d ∧ m = mappingOf d := by
  induction attempts with
  | nil => cases h
  | cons a rest ih =>
      rw [List.flatMap_cons, List.find?_append]
      rw [exchange] at h
      split at h
      · cases h
      · cases h
      · split at h
        next result hDrain =>
          dsimp only at h
          subst h
          obtain ⟨d, hFirst, hMapping⟩ := drain_eq_ok hDrain
          exact ⟨d, by rw [hFirst, Option.some_or], hMapping⟩
        next hDrain =>
          obtain ⟨d, hFirst, hMapping⟩ := ih h
          exact ⟨d, by rw [drain_eq_none hDrain, Option.none_or, hFirst], hMapping⟩

theorem exchange_filtered (attempts : List Attempt) :
    exchange server req nonce (attempts.map (·.filtered nonce)) =
      exchange server req nonce attempts := by
  induction attempts with
  | nil => rfl
  | cons a rest ih =>
      rw [List.map_cons, exchange, exchange, ih]
      simp only [Attempt.filtered, drain_filter]

/-- Only the request is sent. -/
theorem exchange_sent (attempts : List Attempt) :
    ∀ bytes ∈ (exchange server req nonce attempts).sent, bytes = req := by
  induction attempts with
  | nil =>
      intro bytes h
      cases h
  | cons a rest ih =>
      rw [exchange]
      split
      · exact fun bytes h => absurd h List.not_mem_nil
      · exact fun bytes h => absurd h List.not_mem_nil
      · split
        · intro bytes h
          exact List.mem_singleton.mp h
        · intro bytes h
          rcases List.mem_cons.mp h with rfl | h
          · rfl
          · exact ih bytes h

end Exchange

/-- A mapping is the one granted by the first success that repeats the nonce of the request.
Other datagrams, errors apart, have no effect. The bytes that are sent determine the
request. -/
theorem replies_match_requests (server : String) (r : Request) (dialError : Option String)
    (first second : Attempt) :
    (∀ m, (requestMapping server r dialError first second).result = .ok m →
      ∃ d, (first.datagrams ++ second.datagrams).find? (MapSuccess r.nonce ·) = some d ∧
        m = mappingOf d) ∧
    requestMapping server r dialError (first.filtered r.nonce) (second.filtered r.nonce) =
      requestMapping server r dialError first second ∧
    (∀ bytes ∈ (requestMapping server r dialError first second).sent, bytes = encodeMapRequest r) ∧
    ∀ s, encodeMapRequest r = encodeMapRequest s →
      to16 r.clientAddr = to16 s.clientAddr ∧
      to16 r.suggestedExternalIP = to16 s.suggestedExternalIP ∧
      r.proto = s.proto ∧ r.internalPort = s.internalPort ∧
      r.suggestedExternalPort = s.suggestedExternalPort ∧ r.lifetime = s.lifetime ∧
      r.nonce = s.nonce := by
  cases dialError with
  | some cause =>
      refine ⟨fun m h => ?_, rfl, fun bytes h => ?_, fun s h => fields_of_encodeMapRequest h⟩
      · cases h
      · cases h
  | none =>
      refine ⟨fun m h => ?_, ?_, ?_, fun s h => fields_of_encodeMapRequest h⟩
      · obtain ⟨d, hFirst, hMapping⟩ := exchange_eq_ok h
        refine ⟨d, ?_, hMapping⟩
        rw [← hFirst, List.flatMap_cons, List.flatMap_singleton]
      · exact exchange_filtered [first, second]
      · exact exchange_sent [first, second]

end Pcp
