import AtreoAgent.Overlay.Persisted
import AtreoAgent.Proxy.Auth

/-! Allowlists from before every install had its own addresses. What they say of the old subnet and
of the old gateway is said of the new ones as well, and of no other address. -/
namespace Overlay

open Codec Net Proxy

def legacySubnetV4 : String := "100.64.0.0/24"

def legacyGatewayV4 : String := "100.64.0.1"

/-- The texts that are known, and those that were added. -/
structure Mirror where
  known : List String
  add : List String

def Mirror.append (m : Mirror) (target : String) : Mirror :=
  if target ∈ m.known then m else ⟨target :: m.known, m.add ++ [target]⟩

/-- One turn of the loop in `ExpandLegacy`. -/
def Mirror.step (subnet gateway : String) (m : Mirror) (c : String) : Mirror :=
  if c = legacySubnetV4 then m.append subnet
  else if c = legacyGatewayV4 ++ "/32" then m.append gateway
  else m

def expandLegacy (cidrs : List String) (derivedSubnet : String) : List String :=
  match gatewayOf derivedSubnet with
  | none => cidrs
  | some derivedGateway =>
      let m := cidrs.foldl (Mirror.step derivedSubnet (derivedGateway ++ "/32")) ⟨cidrs, []⟩
      if m.add = [] then cidrs else cidrs ++ m.add

/-- What a text is mirrored onto. -/
def mirrorOf (subnet gateway c : String) : Option String :=
  if c = legacySubnetV4 then some subnet
  else if c = legacyGatewayV4 ++ "/32" then some gateway
  else none

theorem mirrorOf_eq_some_iff {subnet gateway c t : String} :
    mirrorOf subnet gateway c = some t ↔
      (c = legacySubnetV4 ∧ t = subnet) ∨ (c = legacyGatewayV4 ++ "/32" ∧ t = gateway) := by
  have hApart : legacySubnetV4 ≠ legacyGatewayV4 ++ "/32" := by decide
  unfold mirrorOf
  split
  next hSubnet => simp [hSubnet, hApart, eq_comm]
  next hSubnet =>
    split
    next hGateway => simp [hGateway, hApart.symm, eq_comm]
    next hGateway => simp [hSubnet, hGateway]

section Loop

variable {subnet gateway : String}

theorem Mirror.step_eq (m : Mirror) (c : String) :
    m.step subnet gateway c = (mirrorOf subnet gateway c).elim m m.append := by
  unfold Mirror.step mirrorOf
  split
  · rfl
  · split <;> rfl

theorem Mirror.mem_append {m : Mirror} {target t : String} :
    (t ∈ (m.append target).add ↔ t ∈ m.add ∨ (t = target ∧ t ∉ m.known)) ∧
      (t ∈ (m.append target).known ↔ t = target ∨ t ∈ m.known) := by
  unfold Mirror.append
  split
  next hKnown =>
    refine ⟨⟨.inl, ?_⟩, ⟨.inr, ?_⟩⟩
    · rintro (hOld | ⟨rfl, hNew⟩)
      · exact hOld
      · exact absurd hKnown hNew
    · rintro (rfl | hOld)
      · exact hKnown
      · exact hOld
  next hNew =>
    refine ⟨?_, List.mem_cons⟩
    rw [List.mem_append, List.mem_singleton]
    refine or_congr_right ⟨?_, And.left⟩
    rintro rfl
    exact ⟨rfl, hNew⟩

/-- The loop adds what the texts it sees are mirrored onto, as far as it is not known. -/
theorem Mirror.mem_run (cs : List String) (m : Mirror) (t : String) :
    t ∈ (cs.foldl (Mirror.step subnet gateway) m).add ↔
      t ∈ m.add ∨ (t ∉ m.known ∧ ∃ c ∈ cs, mirrorOf subnet gateway c = some t) := by
  induction cs generalizing m with
  | nil => simp
  | cons c cs ih =>
      rw [List.foldl_cons, ih, Mirror.step_eq]
      cases hMirror : mirrorOf subnet gateway c with
      | none => simp [hMirror]
      | some target =>
          simp only [Option.elim_some, Mirror.mem_append, List.mem_cons, exists_eq_or_imp, hMirror,
            Option.some.injEq, eq_comm (a := target)]
          by_cases hKnown : t ∈ m.known
          · simp only [hKnown, not_true_eq_false, and_false, or_false, or_true, false_and]
          · by_cases hTarget : t = target
            · subst hTarget
              simp only [hKnown, not_false_eq_true, and_self, true_or, or_true]
            · simp only [hTarget, hKnown, not_false_eq_true, false_and, or_false, true_and, false_or]

/-- A loop that sees nothing to mirror adds nothing. -/
theorem Mirror.run_eq (cs : List String) (m : Mirror)
    (h : ∀ c ∈ cs, ∀ t, mirrorOf subnet gateway c = some t → t ∈ m.known) :
    cs.foldl (Mirror.step subnet gateway) m = m := by
  induction cs with
  | nil => rfl
  | cons c cs ih =>
      have hStep : m.step subnet gateway c = m := by
        rw [Mirror.step_eq]
        cases hMirror : mirrorOf subnet gateway c with
        | none => rfl
        | some t => exact if_pos (h c List.mem_cons_self t hMirror)
      rw [List.foldl_cons, hStep]
      exact ih fun d hd => h d (List.mem_cons_of_mem _ hd)

end Loop

section Expansion

variable {cidrs : List String} {d gateway : String}

theorem initial_expandLegacy (cidrs : List String) (d : String) : cidrs <+: expandLegacy cidrs d := by
  unfold expandLegacy
  split
  · exact List.prefix_refl _
  · dsimp only
    split
    · exact List.prefix_refl _
    · exact List.prefix_append _ _

/-- The texts of an expanded list. -/
theorem mem_expandLegacy (hGateway : gatewayOf d = some gateway) (t : String) :
    t ∈ expandLegacy cidrs d ↔
      t ∈ cidrs ∨ ∃ c ∈ cidrs, mirrorOf d (gateway ++ "/32") c = some t := by
  have hRun := @Mirror.mem_run d (gateway ++ "/32") cidrs ⟨cidrs, []⟩ t
  simp only [List.not_mem_nil, false_or] at hRun
  have hAll : t ∈ expandLegacy cidrs d ↔ t ∈ cidrs ∨
      t ∈ (cidrs.foldl (Mirror.step d (gateway ++ "/32")) ⟨cidrs, []⟩).add := by
    simp only [expandLegacy, hGateway]
    split
    next hNone => simp [hNone]
    · exact List.mem_append
  rw [hAll, hRun]
  by_cases hOld : t ∈ cidrs
  · simp only [hOld, true_or]
  · simp only [hOld, not_false_eq_true, true_and]

/-- What holds of some text of an expanded list. -/
theorem exists_mem_expandLegacy (hGateway : gatewayOf d = some gateway) (P : String → Prop) :
    (∃ t ∈ expandLegacy cidrs d, P t) ↔
      (∃ t ∈ cidrs, P t) ∨ (legacySubnetV4 ∈ cidrs ∧ P d) ∨
        (legacyGatewayV4 ++ "/32" ∈ cidrs ∧ P (gateway ++ "/32")) := by
  simp only [mem_expandLegacy hGateway, mirrorOf_eq_some_iff]
  constructor
  · rintro ⟨t, hOld | ⟨c, hc, ⟨rfl, rfl⟩ | ⟨rfl, rfl⟩⟩, hP⟩
    · exact .inl ⟨t, hOld, hP⟩
    · exact .inr (.inl ⟨hc, hP⟩)
    · exact .inr (.inr ⟨hc, hP⟩)
  · rintro (⟨t, hOld, hP⟩ | ⟨hc, hP⟩ | ⟨hc, hP⟩)
    · exact ⟨t, .inl hOld, hP⟩
    · exact ⟨d, .inr ⟨_, hc, .inl ⟨rfl, rfl⟩⟩, hP⟩
    · exact ⟨_, .inr ⟨_, hc, .inr ⟨rfl, rfl⟩⟩, hP⟩

/-- A list in which every mirrored text is there already is not changed. -/
theorem expandLegacy_eq (hGateway : gatewayOf d = some gateway)
    (h : ∀ c ∈ cidrs, ∀ t, mirrorOf d (gateway ++ "/32") c = some t → t ∈ cidrs) :
    expandLegacy cidrs d = cidrs := by
  simp only [expandLegacy, hGateway]
  rw [Mirror.run_eq cidrs ⟨cidrs, []⟩ h]
  exact if_pos rfl

/-- The two kinds of text end differently, so that no target of the one is a legacy text of the other. -/
theorem expandLegacy_expandLegacy (hGateway : gatewayOf d = some gateway)
    (hSubnet : d ≠ legacyGatewayV4 ++ "/32") (hHost : gateway ++ "/32" ≠ legacySubnetV4) :
    expandLegacy (expandLegacy cidrs d) d = expandLegacy cidrs d := by
  apply expandLegacy_eq hGateway
  intro c hc t ht
  rw [mem_expandLegacy hGateway] at hc ⊢
  rcases hc with hc | ⟨c', hc', hMirror⟩
  · exact .inr ⟨c, hc, ht⟩
  · rw [mirrorOf_eq_some_iff] at ht hMirror
    rcases hMirror with ⟨hLegacy, rfl⟩ | ⟨hLegacy, rfl⟩
    · rcases ht with ⟨-, rfl⟩ | ⟨hOther, -⟩
      · exact .inr ⟨c', hc', mirrorOf_eq_some_iff.mpr (.inl ⟨hLegacy, rfl⟩)⟩
      · exact absurd hOther hSubnet
    · rcases ht with ⟨hOther, -⟩ | ⟨-, rfl⟩
      · exact absurd hOther hHost
      · exact .inr ⟨c', hc', mirrorOf_eq_some_iff.mpr (.inr ⟨hLegacy, rfl⟩)⟩

end Expansion

/-- The addresses of a /24. -/
theorem contains_subnetText_iff (b c p q r s : UInt8) :
    (∃ n, parseCIDR (subnetText b c) = some n ∧ n.contains (ofV4 [p, q, r, s]) = true) ↔
      100 = p ∧ b = q ∧ c = r := by
  simp only [parseCIDR_subnetText, Option.some.injEq, exists_eq_left', contains_ofV4, maskIP_slash24,
    List.cons.injEq, and_true]

theorem contains_hostText_iff (b c p q r s : UInt8) :
    (∃ n, parseCIDR (hostText b c 1 ++ "/32") = some n ∧ n.contains (ofV4 [p, q, r, s]) = true) ↔
      100 = p ∧ b = q ∧ c = r ∧ 1 = s := by
  have hRead : parseCIDR (hostText b c 1 ++ "/32") = some ⟨[100, b, c, 1], cidrMask 32 4⟩ := by
    rw [append_slash "/32" "32" rfl, hostText, parseCIDR_quad 100 b c 1 "32" 32 (by decide) (by decide) rfl (by decide), maskIP_slash32]
  simp only [hRead, Option.some.injEq, exists_eq_left', contains_ofV4, maskIP_slash32,
    List.cons.injEq, and_true]

theorem subnetText_eq_iff (b c p q r : UInt8) :
    subnetText b c = String.ofList (formatIPv4 [p, q, r, 0]) ++ "/24" ↔ 100 = p ∧ b = q ∧ c = r := by
  rw [append_slash "/24" "24" rfl]
  constructor
  · intro h
    have hBefore : before '/' (subnetText b c) = hostText b c 0 := (cut_slash (slash_notMem_quad _)).1
    rw [h, (cut_slash (slash_notMem_quad _)).1, hostText, quad_injective] at hBefore
    exact ⟨hBefore.1.symm, hBefore.2.1.symm, hBefore.2.2.1.symm⟩
  · rintro ⟨rfl, rfl, rfl⟩
    rw [subnetText]

/-- Expanding an allowlist trusts the addresses of the derived /24 where the old /24 was trusted and
the derived gateway where the old gateway was, and nothing else is new. -/
theorem expandLegacy_like_for_like {o : Overlay} (h : o.validate = .ok ()) (cidrs : List String)
    {x : String} {p q r s : UInt8} (hx : parseIP x = some (ofV4 [p, q, r, s])) :
    (isTrusted x (parseTrustedNetworks (expandLegacy cidrs o.subnetV4)) = true ↔
      isTrusted x (parseTrustedNetworks cidrs) = true ∨
      (legacySubnetV4 ∈ cidrs ∧ o.subnetV4 = String.ofList (formatIPv4 [p, q, r, 0]) ++ "/24") ∨
      (legacyGatewayV4 ++ "/32" ∈ cidrs ∧ o.gatewayV4 = String.ofList (formatIPv4 [p, q, r, s]))) ∧
    cidrs <+: expandLegacy cidrs o.subnetV4 ∧
    expandLegacy (expandLegacy cidrs o.subnetV4) o.subnetV4 = expandLegacy cidrs o.subnetV4 := by
  obtain ⟨i, hi, rfl⟩ := (validate_eq_ok_iff o).mp h
  obtain ⟨b, c, hLow, -, rfl⟩ := exists_index hi
  rw [subnetAt_index hLow]
  dsimp only
  have hGateway := gatewayOf_subnetText b c
  have hSlash32 : after '/' (hostText b c 1 ++ "/32") = "32" := by
    rw [append_slash "/32" "32" rfl]
    exact (cut_slash (slash_notMem_quad _)).2
  have hSlash24 : after '/' (subnetText b c) = "24" := (cut_slash (slash_notMem_quad _)).2
  refine ⟨?_, initial_expandLegacy _ _, expandLegacy_expandLegacy hGateway ?_ ?_⟩
  · rw [isTrusted_iff hx, isTrusted_iff hx, exists_mem_expandLegacy hGateway, contains_subnetText_iff,
      contains_hostText_iff, subnetText_eq_iff, hostText, quad_injective]
  · intro hSame
    rw [hSame] at hSlash24
    exact absurd hSlash24 (by decide +kernel)
  · intro hSame
    rw [hSame] at hSlash32
    exact absurd hSlash32 (by decide +kernel)

/-- The old gateway alone is mirrored onto the gateway, and no other host becomes trusted. -/
theorem gateway_alone_is_mirrored :
    isTrusted "100.64.1.1" (parseTrustedNetworks
      (expandLegacy ["100.64.0.1/32"] (subnetAt 1).subnetV4)) = true ∧
    isTrusted "100.64.1.2" (parseTrustedNetworks
      (expandLegacy ["100.64.0.1/32"] (subnetAt 1).subnetV4)) = false := by
  have hValid : (subnetAt 1).validate = .ok () := (validate_eq_ok_iff _).mpr ⟨1, by decide, rfl⟩
  constructor
  · refine ((expandLegacy_like_for_like hValid ["100.64.0.1/32"]
      (p := 100) (q := 64) (r := 1) (s := 1) (by decide +kernel)).1).mpr (.inr (.inr ?_))
    exact ⟨by decide, by decide⟩
  · rw [← Bool.not_eq_true, (expandLegacy_like_for_like hValid ["100.64.0.1/32"]
      (p := 100) (q := 64) (r := 1) (s := 2) (by decide +kernel)).1]
    decide +kernel

end Overlay
