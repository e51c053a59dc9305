import AtreoAgent.Json.Decode
import AtreoAgent.Json.Indent
import AtreoAgent.Net.Cidr
import AtreoAgent.Overlay.Addressing

/-! The overlay file. What is read from it is an overlay only if its four texts are those of one
of the /24s. A file from before IPv6 has two of them empty, and they are filled in. -/
namespace Overlay

open Codec Json Net

/-- The range the /24s are drawn from. -/
def base : String := "100.64.0.0/10"

/-- The .1 of a network. -/
def gatewayOf (subnet : String) : Option String :=
  (parseCIDR subnet).map fun n => addressText (n.ip.set (n.ip.length - 1) 1)

inductive Error
  | json
  | base
  | subnetParse (subnetV4 : String)
  | notSlash24 (subnetV4 : String)
  | notCanonical (subnetV4 : String)
  | outside (subnetV4 : String)
  | gateway (gatewayV4 subnetV4 : String)
  | v6Parse (subnetV4 : String)
  | notIPv4 (subnetV4 : String)
  | pairing (subnetV4 : String) (cause : Error)
  | subnetV6 (subnetV6 subnetV4 want : String)
  | gatewayV6 (gatewayV6 subnetV4 want : String)
  deriving DecidableEq, Repr

def v6FromV4 (subnetV4 : String) : Except Error (String × String) :=
  match parseCIDR subnetV4 with
  | none => .error (.v6Parse subnetV4)
  | some n =>
      match shorten n.ip with
      | some [_, b, c, _] => .ok (v6At ((b.toNat : Int) - 64) c.toNat)
      | _ => .error (.notIPv4 subnetV4)

def validate (o : Overlay) : Except Error Unit :=
  match parseCIDR base with
  | none => .error .base
  | some range =>
      match parseCIDRAddress o.subnetV4 with
      | none => .error (.subnetParse o.subnetV4)
      | some (ip, n) =>
          if (simpleMaskLength n.mask).getD 0 ≠ 24 then .error (.notSlash24 o.subnetV4)
          else if o.subnetV4 ≠ n.string then .error (.notCanonical o.subnetV4)
          else if range.contains ip = false then .error (.outside o.subnetV4)
          -- a gateway that cannot be derived is compared with the empty text
          else if o.gatewayV4 ≠ (gatewayOf o.subnetV4).getD "" then
            .error (.gateway o.gatewayV4 o.subnetV4)
          else
            match v6FromV4 o.subnetV4 with
            | .error cause => .error (.pairing o.subnetV4 cause)
            | .ok want =>
                if o.subnetV6 ≠ want.1 then .error (.subnetV6 o.subnetV6 o.subnetV4 want.1)
                else if o.gatewayV6 ≠ want.2 then .error (.gatewayV6 o.gatewayV6 o.subnetV4 want.2)
                else .ok ()

def schema : Schema :=
  [("subnetV4", .leaf .text), ("gatewayV4", .leaf .text), ("subnetV6", .leaf .text),
    ("gatewayV6", .leaf .text)]

/-- The bytes `save` writes, for the text of the time. -/
def saved (o : Overlay) (rolledAt : String) : Bytes :=
  printIndented [("subnetV4", o.subnetV4), ("gatewayV4", o.gatewayV4), ("subnetV6", o.subnetV6),
    ("gatewayV6", o.gatewayV6), ("rolledAt", rolledAt)] ++ [0x0a]

/-- The times that have a JSON form, how `rolledAt` is read from a file and how it is written. A
time that was written is read back. -/
structure TimeCodec (T : Type) where
  read : Bytes → Option T
  text : T → String
  read_saved : ∀ o t, read (saved o (text t)) = some t

variable {T : Type} (codec : TimeCodec T)

def save (o : Overlay) (rolledAt : T) : Bytes := saved o (codec.text rolledAt)

def readOverlay (es : List Event) : Overlay :=
  { subnetV4 := finalText (storesAt ["subnetV4"] es)
    gatewayV4 := finalText (storesAt ["gatewayV4"] es)
    subnetV6 := finalText (storesAt ["subnetV6"] es)
    gatewayV6 := finalText (storesAt ["gatewayV6"] es) }

/-- `json.Unmarshal` into an overlay and its time. -/
def unmarshalOverlay (data : Bytes) : Option (Overlay × T) := do
  let es ← unmarshal schema data
  let rolledAt ← codec.read data
  some (readOverlay es, rolledAt)

/-- Fill in the IPv6 part if both its texts are empty, and say whether that was done. -/
def backfill (o : Overlay) : Except Error (Overlay × Bool) :=
  if o.subnetV6 = "" ∧ o.gatewayV6 = "" then
    match v6FromV4 o.subnetV4 with
    | .error e => .error e
    | .ok v6 => .ok ({ o with subnetV6 := v6.1, gatewayV6 := v6.2 }, true)
  else .ok (o, false)

/-- The overlay, its time, and whether it was migrated. -/
def parseAndMigrate (data : Bytes) : Except Error ((Overlay × T) × Bool) :=
  match unmarshalOverlay codec data with
  | none => .error .json
  | some (o, rolledAt) =>
      match o.backfill with
      | .error e => .error e
      | .ok (o, migrated) =>
          match o.validate with
          | .error e => .error e
          | .ok () => .ok ((o, rolledAt), migrated)

/-- The index of the /24 with these two octets. -/
def index (b c : UInt8) : Nat := (b.toNat - 64) * 256 + c.toNat

/-- A /24 of the range, as a text. -/
def subnetText (b c : UInt8) : String := String.ofList (formatIPv4 [100, b, c, 0]) ++ "/" ++ "24"

def hostText (b c d : UInt8) : String := String.ofList (formatIPv4 [100, b, c, d])

theorem index_lt {b c : UInt8} (h : b.toNat < 128) : index b c < subnetCount := by
  have hc := c.toNat_lt
  simp only [index, subnetCount]
  omega

variable {i : Nat} {o : Overlay}

theorem exists_index (h : i < subnetCount) :
    ∃ b c : UInt8, 64 ≤ b.toNat ∧ b.toNat < 128 ∧ index b c = i := by
  simp only [subnetCount] at h
  have hb : (UInt8.ofNat (64 + i / 256)).toNat = 64 + i / 256 :=
    UInt8.toNat_ofNat_of_lt' (by simp only [UInt8.size]; omega)
  have hc : (UInt8.ofNat (i % 256)).toNat = i % 256 :=
    UInt8.toNat_ofNat_of_lt' (by simp only [UInt8.size]; omega)
  refine ⟨UInt8.ofNat (64 + i / 256), UInt8.ofNat (i % 256), ?_, ?_, ?_⟩
  · omega
  · omega
  · rw [index, hb, hc]
    omega

theorem subnetAt_index {b c : UInt8} (h : 64 ≤ b.toNat) :
    subnetAt (index b c) =
      { subnetV4 := subnetText b c
        gatewayV4 := hostText b c 1
        subnetV6 := (v6At ((b.toNat : Int) - 64) c.toNat).1
        gatewayV6 := (v6At ((b.toNat : Int) - 64) c.toNat).2 } := by
  have hc := c.toNat_lt
  have hHigh : index b c / 256 = b.toNat - 64 := by
    rw [index]
    omega
  have hLow : index b c % 256 = c.toNat := by
    rw [index]
    omega
  have hSecond : 64 + (b.toNat - 64) = b.toNat := by omega
  have hSigned : (index b c : Int) / 256 = (b.toNat : Int) - 64 := by
    rw [index]
    omega
  have hSubnet : "100." ++ toString b.toNat ++ "." ++ toString c.toNat ++ ".0/24" = subnetText b c := by
    apply String.toList_inj.mp
    simp only [subnetText, String.toList_append, String.toList_ofList, formatIPv4_cons,
      formatIPv4_singleton, List.append_assoc, List.cons_append]
    rfl
  have hGateway : "100." ++ toString b.toNat ++ "." ++ toString c.toNat ++ ".1" = hostText b c 1 := by
    apply String.toList_inj.mp
    simp only [hostText, String.toList_append, String.toList_ofList, formatIPv4_cons,
      formatIPv4_singleton, List.append_assoc]
    rfl
  simp only [subnetAt, hHigh, hLow, hSecond, hSigned, hSubnet, hGateway]

theorem parseCIDR_subnetText (b c : UInt8) :
    parseCIDR (subnetText b c) = some ⟨[100, b, c, 0], cidrMask 24 4⟩ := by
  have hRead := parseCIDR_quad 100 b c 0 "24" 24 (by decide) (by decide) rfl (by decide)
  rwa [maskIP_slash24] at hRead

theorem parseCIDRAddress_subnetText (b c : UInt8) :
    parseCIDRAddress (subnetText b c) = some (ofV4 [100, b, c, 0], ⟨[100, b, c, 0], cidrMask 24 4⟩) := by
  have hBefore : before '/' (subnetText b c) = hostText b c 0 := (cut_slash (slash_notMem_quad _)).1
  have hIP : parseIP (hostText b c 0) = some (ofV4 [100, b, c, 0]) := parseIP_quad String.toList_ofList
  rw [parseCIDRAddress, hBefore, hIP, parseCIDR_subnetText]
  rfl

theorem gatewayOf_subnetText (b c : UInt8) : gatewayOf (subnetText b c) = some (hostText b c 1) := by
  rw [gatewayOf, parseCIDR_subnetText]
  rfl

theorem v6FromV4_subnetText (b c : UInt8) :
    v6FromV4 (subnetText b c) = .ok (v6At ((b.toNat : Int) - 64) c.toNat) := by
  rw [v6FromV4, parseCIDR_subnetText]
  rfl

theorem parseCIDR_base : parseCIDR base = some ⟨[100, 64, 0, 0], [255, 192, 0, 0]⟩ := by decide +kernel

theorem and_192_iff (b : UInt8) : b &&& 192 = 64 ↔ 64 ≤ b.toNat ∧ b.toNat < 128 := by
  have hAll : ∀ i : Fin 256, UInt8.ofNat i &&& 192 = 64 ↔ 64 ≤ i.val ∧ i.val < 128 := by decide +kernel
  simpa using hAll ⟨b.toNat, b.toNat_lt⟩

/-- The addresses of the range. -/
theorem contains_base_iff {ip : IP} (h : ip.length = 16) :
    IPNet.contains ⟨[100, 64, 0, 0], [255, 192, 0, 0]⟩ ip = true ↔
      ∃ b c d : UInt8, ip = ofV4 [100, b, c, d] ∧ 64 ≤ b.toNat ∧ b.toNat < 128 := by
  have hMask : cidrMask 10 4 = [255, 192, 0, 0] := by decide
  have hQuad : ∀ a b c d : UInt8,
      IPNet.contains ⟨[100, 64, 0, 0], [255, 192, 0, 0]⟩ (ofV4 [a, b, c, d]) = true ↔
        a = 100 ∧ 64 ≤ b.toNat ∧ b.toNat < 128 := by
    intro a b c d
    have hOctets : IPNet.contains ⟨[100, 64, 0, 0], [255, 192, 0, 0]⟩ (ofV4 [a, b, c, d]) = true ↔
        100 = a ∧ 64 &&& 192 = b &&& 192 := by
      rw [← hMask, contains_ofV4, hMask]
      simp [maskIP, and_ones]
    rw [hOctets, ← and_192_iff, eq_comm, @eq_comm _ (64 &&& 192)]
    rfl
  constructor
  · intro hIn
    cases hV4 : to4 ip with
    | none => simp [IPNet.contains, hV4, h, show to4 [100, 64, 0, 0] = none by decide] at hIn
    | some quad =>
        obtain ⟨a, b, c, d, -, rfl⟩ := exists_quad_of_to4 h hV4
        obtain ⟨rfl, hRange⟩ := (hQuad a b c d).mp hIn
        exact ⟨b, c, d, rfl, hRange⟩
  · rintro ⟨b, c, d, rfl, hRange⟩
    exact (hQuad 100 b c d).mpr ⟨rfl, hRange⟩

theorem string_slash24 (b c : UInt8) :
    IPNet.string ⟨[100, b, c, 0], cidrMask 24 4⟩ = subnetText b c := rfl

/-- A mapped address keeps none of its octets in a /24 of IPv6 addresses. -/
theorem string_mapped (quad : List UInt8) (h : quad.length = 4) :
    IPNet.string ⟨maskIP (ofV4 quad) (cidrMask 24 16), cidrMask 24 16⟩ = "::/24" := by
  obtain ⟨a, b, c, d, rfl⟩ := List.length_eq_four.mp h
  have hMask : cidrMask 24 16 = [255, 255, 255] ++ List.replicate 13 0 := by decide
  have hNet : maskIP (ofV4 [a, b, c, d]) (cidrMask 24 16) = List.replicate 16 0 := by
    rw [hMask]
    simp [maskIP, ofV4, v4Head, List.replicate]
  rw [hNet]
  decide +kernel

/-- The subnet text that is accepted is that of a /24 of the range. A text that is not dotted
names IPv6 addresses, and only a mapped one is in the range. -/
theorem exists_subnetText {s : String} {ip : IP} {n : IPNet} (hRead : parseCIDRAddress s = some (ip, n))
    (hLength : simpleMaskLength n.mask = some 24) (hText : s = n.string)
    (hIn : IPNet.contains ⟨[100, 64, 0, 0], [255, 192, 0, 0]⟩ ip = true) :
    ∃ b c : UInt8, s = subnetText b c ∧ 64 ≤ b.toNat ∧ b.toNat < 128 := by
  simp only [parseCIDRAddress, Option.bind_eq_bind, Option.bind_eq_some_iff, Option.some.injEq,
    Prod.mk.injEq] at hRead
  obtain ⟨_, hIP, _, hNet, rfl, rfl⟩ := hRead
  obtain ⟨_, octets, ones, hIP', hOctets, hFit, rfl⟩ := exists_of_parseCIDR hNet
  cases hIP.symm.trans hIP'
  obtain ⟨b, c, d, rfl, hRange⟩ := (contains_base_iff (length_of_parseIP hIP)).mp hIn
  rw [simpleMaskLength_cidrMask hOctets hFit] at hLength
  cases hLength
  rcases hOctets with rfl | rfl
  · have hDrop : (ofV4 [100, b, c, d]).drop (16 - 4) = [100, b, c, d] := rfl
    rw [hDrop, maskIP_slash24, string_slash24] at hText
    exact ⟨b, c, hText, hRange⟩
  · have hDrop : (ofV4 [100, b, c, d]).drop (16 - 16) = ofV4 [100, b, c, d] := rfl
    rw [hDrop, string_mapped _ rfl] at hText
    rw [hText] at hIP
    have hZero : parseIP (before '/' "::/24") = some (List.replicate 16 0) := by decide +kernel
    rw [hZero] at hIP
    cases hIP

/-- Exactly the addressings of the range are accepted. -/
theorem validate_eq_ok_iff (o : Overlay) : o.validate = .ok () ↔ ∃ i < subnetCount, o = subnetAt i := by
  constructor
  · intro h
    simp only [validate, parseCIDR_base] at h
    cases hRead : parseCIDRAddress o.subnetV4 with
    | none => simp [hRead] at h
    | some read =>
        obtain ⟨ip, n⟩ := read
        simp only [hRead] at h
        split_ifs at h with hLength hText hIn hGateway
        push Not at hLength hText hGateway
        have hOnes : simpleMaskLength n.mask = some 24 := by
          cases hMask : simpleMaskLength n.mask with
          | none => simp [hMask] at hLength
          | some ones => simpa [hMask] using hLength
        obtain ⟨b, c, hSubnet, hLow, hHigh⟩ := exists_subnetText hRead hOnes hText
          (Bool.not_eq_false _ ▸ hIn)
        rw [hSubnet, v6FromV4_subnetText] at h
        dsimp only at h
        split_ifs at h with hSubnetV6 hGatewayV6
        push Not at hSubnetV6 hGatewayV6
        rw [hSubnet, gatewayOf_subnetText, Option.getD_some] at hGateway
        refine ⟨index b c, index_lt hHigh, ?_⟩
        rw [subnetAt_index hLow, ← hSubnet, ← hGateway, ← hSubnetV6, ← hGatewayV6]
  · rintro ⟨i, hi, rfl⟩
    obtain ⟨b, c, hLow, hHigh, rfl⟩ := exists_index hi
    have hIn := (contains_base_iff rfl).mpr ⟨b, c, 0, rfl, hLow, hHigh⟩
    rw [subnetAt_index hLow]
    simp only [validate, parseCIDR_base, parseCIDRAddress_subnetText, string_slash24,
      simpleMaskLength_cidrMask (.inl rfl) (show 24 ≤ 8 * 4 by decide), Option.getD_some, hIn,
      gatewayOf_subnetText, v6FromV4_subnetText, ne_eq, not_true_eq_false, if_false,
      Bool.true_eq_false]

theorem subnetV6_ne_empty (i : Nat) : (subnetAt i).subnetV6 ≠ "" := by
  intro h
  have hList := congrArg String.toList h
  simp [subnetAt, v6At] at hList

/-- The four texts are those of the index, or those from before IPv6. -/
def Names (o : Overlay) (i : Nat) : Prop :=
  o.subnetV4 = (subnetAt i).subnetV4 ∧ o.gatewayV4 = (subnetAt i).gatewayV4 ∧
    ((o.subnetV6 = (subnetAt i).subnetV6 ∧ o.gatewayV6 = (subnetAt i).gatewayV6) ∨
      (o.subnetV6 = "" ∧ o.gatewayV6 = ""))

/-- No IPv6 part has been written yet. -/
def lacksV6 (o : Overlay) : Bool := o.subnetV6 = "" ∧ o.gatewayV6 = ""

theorem v6FromV4_subnetAt (h : i < subnetCount) :
    v6FromV4 (subnetAt i).subnetV4 = .ok ((subnetAt i).subnetV6, (subnetAt i).gatewayV6) := by
  obtain ⟨b, c, hLow, -, rfl⟩ := exists_index h
  rw [subnetAt_index hLow]
  exact v6FromV4_subnetText b c

/-- Backfilling what names an index gives the addressing of that index. -/
theorem backfill_of_names (hi : i < subnetCount) (h : o.Names i) :
    o.backfill = .ok (subnetAt i, o.lacksV6) := by
  obtain ⟨hSubnet, hGateway, ⟨hSubnetV6, hGatewayV6⟩ | ⟨hSubnetV6, hGatewayV6⟩⟩ := h
  · have hSome : ¬(o.subnetV6 = "" ∧ o.gatewayV6 = "") := by
      rintro ⟨hEmpty, -⟩
      exact subnetV6_ne_empty i (hSubnetV6.symm.trans hEmpty)
    have hSame : o = subnetAt i := by
      cases o
      simp_all
    rw [backfill, if_neg hSome, lacksV6, decide_eq_false hSome, hSame]
  · rw [backfill, if_pos ⟨hSubnetV6, hGatewayV6⟩, hSubnet, v6FromV4_subnetAt hi, hGateway, lacksV6,
      decide_eq_true ⟨hSubnetV6, hGatewayV6⟩]

/-- What a backfilled overlay that is an addressing was before. -/
theorem names_of_backfill {migrated : Bool} (h : o.backfill = .ok (subnetAt i, migrated)) :
    o.Names i := by
  unfold backfill at h
  split at h
  next hEmpty =>
    split at h
    · cases h
    · have hFields := congrArg Prod.fst (Except.ok.inj h)
      dsimp only at hFields
      exact ⟨by rw [← hFields], by rw [← hFields], .inr hEmpty⟩
  · have hSame := congrArg Prod.fst (Except.ok.inj h)
    dsimp only at hSame
    subst hSame
    exact ⟨rfl, rfl, .inl ⟨rfl, rfl⟩⟩

theorem parseAndMigrate_eq_ok_iff {data : Bytes} {rolledAt : T}
    (h : unmarshalOverlay codec data = some (o, rolledAt)) (r : (Overlay × T) × Bool) :
    parseAndMigrate codec data = .ok r ↔
      ∃ i < subnetCount, o.Names i ∧ r = ((subnetAt i, rolledAt), o.lacksV6) := by
  rw [parseAndMigrate, h]
  dsimp only
  constructor
  · intro hOk
    cases hFill : o.backfill with
    | error e => simp [hFill] at hOk
    | ok filled =>
        obtain ⟨o', migrated⟩ := filled
        simp only [hFill] at hOk
        cases hValid : o'.validate with
        | error e => simp [hValid] at hOk
        | ok _ =>
            obtain ⟨i, hi, rfl⟩ := (validate_eq_ok_iff o').mp hValid
            have hNames := names_of_backfill hFill
            rw [backfill_of_names hi hNames] at hFill
            cases hFill
            simp only [hValid] at hOk
            exact ⟨i, hi, hNames, (Except.ok.inj hOk).symm⟩
  · rintro ⟨i, hi, hNames, rfl⟩
    have hValid := (validate_eq_ok_iff (subnetAt i)).mpr ⟨i, hi, rfl⟩
    simp only [backfill_of_names hi hNames, hValid]

/-- The stores of a file that was saved. -/
theorem unmarshal_saved (o : Overlay) (rolledAt : String) :
    unmarshal schema (saved o rolledAt) =
      some [(["subnetV4"], .text o.subnetV4), (["gatewayV4"], .text o.gatewayV4),
        (["subnetV6"], .text o.subnetV6), (["gatewayV6"], .text o.gatewayV6)] := by
  rw [unmarshal, saved, parseWhole_indented (List.cons_ne_nil _ _)]
  rfl

/-- What was saved is read back. -/
theorem unmarshalOverlay_save (o : Overlay) (rolledAt : T) :
    unmarshalOverlay codec (save codec o rolledAt) = some (o, rolledAt) := by
  rw [unmarshalOverlay, save, unmarshal_saved, codec.read_saved]
  rfl

/-- An overlay file is accepted exactly if its texts name one of the /24s. What is read then is the
addressing of that /24, and after saving it is read again with nothing to migrate. -/
theorem accepted_iff_names {data : Bytes} {o : Overlay} {rolledAt : T}
    (h : unmarshalOverlay codec data = some (o, rolledAt)) :
    ((∃ r, parseAndMigrate codec data = .ok r) ↔ ∃ i < subnetCount, o.Names i) ∧
      ∀ i < subnetCount, o.Names i →
        parseAndMigrate codec data = .ok ((subnetAt i, rolledAt), o.lacksV6) ∧
        parseAndMigrate codec (save codec (subnetAt i) rolledAt) =
          .ok ((subnetAt i, rolledAt), false) := by
  refine ⟨⟨?_, ?_⟩, ?_⟩
  · rintro ⟨r, hOk⟩
    obtain ⟨i, hi, hNames, -⟩ := (parseAndMigrate_eq_ok_iff codec h r).mp hOk
    exact ⟨i, hi, hNames⟩
  · rintro ⟨i, hi, hNames⟩
    exact ⟨_, (parseAndMigrate_eq_ok_iff codec h _).mpr ⟨i, hi, hNames, rfl⟩⟩
  · intro i hi hNames
    have hAgain : (subnetAt i).lacksV6 = false := by
      simp [lacksV6, subnetV6_ne_empty i]
    refine ⟨(parseAndMigrate_eq_ok_iff codec h _).mpr ⟨i, hi, hNames, rfl⟩, ?_⟩
    rw [← hAgain]
    exact (parseAndMigrate_eq_ok_iff codec (unmarshalOverlay_save codec _ _) _).mpr
      ⟨i, hi, ⟨rfl, rfl, .inl ⟨rfl, rfl⟩⟩, rfl⟩

/-- A time that is kept as the text in the file. -/
def textTime : TimeCodec String where
  read data := (unmarshal [("rolledAt", .leaf .text)] data).map fun es => finalText (storesAt ["rolledAt"] es)
  text rolledAt := rolledAt
  read_saved o rolledAt := by
    rw [unmarshal, saved, parseWhole_indented (List.cons_ne_nil _ _)]
    rfl

/-- A file from before IPv6, on the last of the /24s. -/
def oldFile : Bytes := save textTime ⟨"100.127.255.0/24", "100.127.255.1", "", ""⟩ "2026-01-02T03:04:05Z"

theorem oldFile_is_migrated :
    parseAndMigrate textTime oldFile = .ok ((subnetAt 16383, "2026-01-02T03:04:05Z"), true) :=
  ((accepted_iff_names textTime (unmarshalOverlay_save textTime _ _)).2 16383 (by decide)
    ⟨by decide, by decide, .inr ⟨rfl, rfl⟩⟩).1

end Overlay
