import AtreoAgent.Codec.Text
import AtreoAgent.Net.IP
import Mathlib.Algebra.GroupWithZero.Nat

/-! Networks in CIDR form (`net.ParseCIDR`), their text, and the addresses in them. -/
namespace Net

open Codec

/-- A network address and its mask, of four octets each or of sixteen. -/
structure IPNet where
  ip : List UInt8
  mask : List UInt8
  deriving DecidableEq, Repr

/-- The octet with the given number of leading ones, all of them if there are more. -/
def maskOctet (ones : Nat) : UInt8 := UInt8.ofNat (256 - 2 ^ (8 - ones))

/-- `net.CIDRMask`. -/
def cidrMask (ones octets : Nat) : List UInt8 :=
  (List.range octets).map fun i => maskOctet (ones - 8 * i)

/-- Octet by octet. -/
def maskIP (ip mask : List UInt8) : List UInt8 := List.zipWith (· &&& ·) ip mask

/-- An address in dotted form has a mask of four octets. -/
def parseCIDR (s : String) : Option IPNet := do
  let addr := before '/' s
  let length := chars (after '/' s)
  let ip ← parseIP addr
  let dotted := (chars addr).find? (fun c => c = '.' ∨ c = ':') = some '.'
  let octets := if dotted then 4 else 16
  let ones := length.foldl (fun n c => 10 * n + (c.toNat - 48)) 0
  if length = [] ∨ length.all Char.isDigit = false ∨ 8 * octets < ones then none
  else
    let mask := cidrMask ones octets
    some ⟨maskIP (ip.drop (16 - octets)) mask, mask⟩

/-- `IPNet.Contains`. A mapped IPv4 address counts as IPv4, in the network as well. -/
def IPNet.contains (n : IPNet) (ip : IP) : Bool :=
  let nn := (to4 n.ip).getD n.ip
  let m := if n.mask.length = nn.length then n.mask else n.mask.drop 12
  let x := (to4 ip).getD ip
  x.length = nn.length && maskIP nn m = maskIP x m

/-- What `net.ParseCIDR` returns: the address as it was written, and its network. -/
def parseCIDRAddress (s : String) : Option (IP × IPNet) := do
  let ip ← parseIP (before '/' s)
  let n ← parseCIDR s
  some (ip, n)

/-- `IP.To4`, for an address of four octets or of sixteen. -/
def shorten (ip : List UInt8) : Option (List UInt8) := if ip.length = 4 then some ip else to4 ip

/-- `IP.String`, for an address of four octets or of sixteen. -/
def addressText (ip : List UInt8) : String :=
  match shorten ip with
  | some quad => String.ofList (formatIPv4 quad)
  | none => String.ofList (formatIPv6 ip)

/-- The leading ones of an octet, and what is left when they are shifted out. -/
def leadingOnes : Nat → UInt8 → Nat × UInt8
  | 0, v => (0, v)
  | left + 1, v =>
      if v &&& 0x80 ≠ 0 then
        let rest := leadingOnes left (v <<< 1)
        (rest.1 + 1, rest.2)
      else (0, v)

/-- `simpleMaskLength`: the length of a mask that is ones and then zeros. -/
def simpleMaskLength : List UInt8 → Option Nat
  | [] => some 0
  | v :: rest =>
      if v = 0xff then (simpleMaskLength rest).map (8 + ·)
      else
        let ones := leadingOnes 8 v
        if ones.2 ≠ 0 ∨ rest.any (· ≠ 0) then none else some ones.1

/-- `IPNet.String`. A mask that has no length is written in hexadecimal. -/
def IPNet.string (n : IPNet) : String :=
  let nn := (shorten n.ip).getD n.ip
  let m := if n.mask.length = 16 ∧ nn.length = 4 then n.mask.drop 12 else n.mask
  if m.length ≠ nn.length then "<nil>"
  else
    match simpleMaskLength m with
    | some length => addressText nn ++ "/" ++ toString length
    | none =>
        addressText nn ++ "/" ++
          String.ofList (m.flatMap fun b => [Nat.digitChar (b.toNat / 16), Nat.digitChar (b.toNat % 16)])

/-- A network that was read has the mask of its length, on the address that was read. -/
theorem exists_of_parseCIDR {s : String} {n : IPNet} (h : parseCIDR s = some n) :
    ∃ ip octets ones, parseIP (before '/' s) = some ip ∧ (octets = 4 ∨ octets = 16) ∧
      ones ≤ 8 * octets ∧
      n = ⟨maskIP (ip.drop (16 - octets)) (cidrMask ones octets), cidrMask ones octets⟩ := by
  unfold parseCIDR at h
  cases hIP : parseIP (before '/' s) with
  | none => simp [hIP] at h
  | some ip =>
      simp only [hIP, Option.bind_eq_bind, Option.bind_some] at h
      obtain ⟨hFit, hNet⟩ := Option.ite_none_left_eq_some.mp h
      push Not at hFit
      refine ⟨ip, _, _, rfl, ?_, hFit.2.2, (Option.some.inj hNet).symm⟩
      split
      · exact .inl rfl
      · exact .inr rfl

/-- A length with its slash, as two texts. -/
theorem append_slash {addr : String} (text length : String) (h : text = "/" ++ length) :
    addr ++ text = addr ++ "/" ++ length := by
  rw [h, String.append_assoc]

/-- The slash that cuts a network text is the first one. -/
theorem cut_slash {addr length : String} (hSlash : '/' ∉ addr.toList) :
    before '/' (addr ++ "/" ++ length) = addr ∧ after '/' (addr ++ "/" ++ length) = length := by
  have hCut : addr ++ "/" ++ length = addr ++ (String.singleton '/' ++ length) := by
    rw [String.append_assoc]
    rfl
  exact (eq_append_iff.mp ⟨hCut, by rwa [chars_eq]⟩).2

/-- A network is read from an address, a slash and a length. -/
theorem parseCIDR_text {addr length : String} {ip : IP} {octets ones : Nat}
    (hSlash : '/' ∉ addr.toList) (hIP : parseIP addr = some ip)
    (hOctets : (if addr.toList.find? (fun c => c = '.' ∨ c = ':') = some '.' then 4 else 16) = octets)
    (hSome : length.toList ≠ []) (hDigits : length.toList.all Char.isDigit = true)
    (hOnes : length.toList.foldl (fun n c => 10 * n + (c.toNat - 48)) 0 = ones)
    (hFit : ones ≤ 8 * octets) :
    parseCIDR (addr ++ "/" ++ length) =
      some ⟨maskIP (ip.drop (16 - octets)) (cidrMask ones octets), cidrMask ones octets⟩ := by
  obtain ⟨hBefore, hAfter⟩ := @cut_slash addr length hSlash
  unfold parseCIDR
  simp only [hBefore, hAfter, hIP, chars_eq, Option.bind_eq_bind, Option.bind_some,
    hOctets, hOnes]
  rw [if_neg]
  rintro (hNone | hOther | hLong)
  · exact hSome hNone
  · rw [hDigits] at hOther
    cases hOther
  · omega

/-- A dotted text is made of digits and dots. -/
theorem mem_formatIPv4 {quad : List UInt8} {c : Char} (h : c ∈ formatIPv4 quad) :
    c = '.' ∨ c.isDigit = true := by
  induction quad with
  | nil => simp [formatIPv4] at h
  | cons a quad ih =>
      cases quad with
      | nil =>
          rw [formatIPv4_singleton] at h
          exact .inr (decimal_digits a c h)
      | cons b quad =>
          rw [formatIPv4_cons, List.mem_append, List.mem_cons] at h
          rcases h with hFirst | hDot | hRest
          · exact .inr (decimal_digits a c hFirst)
          · exact .inl hDot
          · exact ih hRest

theorem slash_notMem_quad (quad : List UInt8) : '/' ∉ (String.ofList (formatIPv4 quad)).toList := by
  rw [String.toList_ofList]
  intro h
  rcases mem_formatIPv4 h with h | h <;> exact absurd h (by decide)

/-- A network is read from a dotted quad. -/
theorem parseCIDR_quad (a b c d : UInt8) (length : String) (ones : Nat)
    (hSome : length.toList ≠ []) (hDigits : length.toList.all Char.isDigit = true)
    (hOnes : length.toList.foldl (fun n c => 10 * n + (c.toNat - 48)) 0 = ones) (hFit : ones ≤ 32) :
    parseCIDR (String.ofList (formatIPv4 [a, b, c, d]) ++ "/" ++ length) =
      some ⟨maskIP [a, b, c, d] (cidrMask ones 4), cidrMask ones 4⟩ := by
  have hFirst : (String.ofList (formatIPv4 [a, b, c, d])).toList.find? (fun c => c = '.' ∨ c = ':') =
      some '.' := by
    rw [String.toList_ofList]
    apply find?_formatIPv4
    · intro x hx
      simp [isDigit_ne hx (show '.'.isDigit = false by decide),
        isDigit_ne hx (show ':'.isDigit = false by decide)]
    · decide
  exact parseCIDR_text (slash_notMem_quad _) (parseIP_quad String.toList_ofList) (if_pos hFirst)
    hSome hDigits hOnes hFit

theorem and_ones (x : UInt8) : x &&& 255 = x :=
  UInt8.toNat_inj.mp (by simp [Nat.and_two_pow_sub_one_eq_mod x.toNat 8])

/-- The /24 of an address has its last octet zero. -/
theorem maskIP_slash24 (a b c d : UInt8) : maskIP [a, b, c, d] (cidrMask 24 4) = [a, b, c, 0] := by
  have hMask : cidrMask 24 4 = [255, 255, 255, 0] := by decide
  rw [hMask]
  simp [maskIP, and_ones]

/-- The /32 of an address is the address. -/
theorem maskIP_slash32 (a b c d : UInt8) : maskIP [a, b, c, d] (cidrMask 32 4) = [a, b, c, d] := by
  have hMask : cidrMask 32 4 = [255, 255, 255, 255] := by decide
  rw [hMask]
  simp [maskIP, and_ones]

/-- A network of IPv4 addresses holds those that its mask does not tell apart. -/
theorem contains_ofV4 (a b c d p q r s : UInt8) (ones : Nat) :
    IPNet.contains ⟨[a, b, c, d], cidrMask ones 4⟩ (ofV4 [p, q, r, s]) = true ↔
      maskIP [a, b, c, d] (cidrMask ones 4) = maskIP [p, q, r, s] (cidrMask ones 4) := by
  have hShort : to4 [a, b, c, d] = none := by simp [to4, v4Head, List.replicate]
  have hLength : (cidrMask ones 4).length = 4 := by simp [cidrMask]
  simp [IPNet.contains, hShort, to4_ofV4, hLength]

/-- A mask is as long as it was made. -/
theorem simpleMaskLength_cidrMask {octets ones : Nat} (hOctets : octets = 4 ∨ octets = 16)
    (hFit : ones ≤ 8 * octets) : simpleMaskLength (cidrMask ones octets) = some ones := by
  have hShort : ∀ i : Fin 33, simpleMaskLength (cidrMask i 4) = some i.val := by decide +kernel
  have hLong : ∀ i : Fin 129, simpleMaskLength (cidrMask i 16) = some i.val := by decide +kernel
  rcases hOctets with rfl | rfl
  · exact hShort ⟨ones, by omega⟩
  · exact hLong ⟨ones, by omega⟩

end Net
