import AtreoAgent.Proxy.Slug

/-! The certificate that is served for a name, and the app its requests are routed to. The
certificate is found under the normal form of what follows the first label. The route is
found by comparing the host of the request, as it stands, with the registered suffixes. -/
namespace Proxy

open Codec Net Certs

/-- A name whose labels are not empty, without the signs of a port or a bracket. -/
def Hostname (h : String) : Prop := Plain h ∧ ∀ label ∈ (chars h).splitOn '.', label ≠ []

instance (h : String) : Decidable (Hostname h) :=
  inferInstanceAs (Decidable (_ ∧ ∀ label ∈ (chars h).splitOn '.', label ≠ []))

/-- The name in a request, with or without a dot at its end. -/
def sentName (h : String) (dot : Bool) : String := if dot then h ++ "." else h

def hostHeader (h : String) (dot : Bool) : Option String → String
  | none => sentName h dot
  | some port => sentName h dot ++ ":" ++ port

/-- The certificate of the suffix is served because it follows the first label. -/
def StrippedTo (lower : Char → Char) (r : Registry) (h z : String) : Prop :=
  z = normaliseHost lower (stripFirstLabel h) ∧
    ∃ leaf, r.certOf z = some leaf ∧ r.getCertificate lower (some h) = .ok leaf

/-- A request is routed to the first label of the name, up to case, under the suffix. -/
def RoutedUnder (lower : Char → Char) (r : Registry) (host h z : String) : Prop :=
  toLower lower (extractSlug host r.suffixes) = toLower lower (before '.' h) ∧ z ∈ r.suffixes ∧
    hostPart host = extractSlug host r.suffixes ++ (String.singleton '.' ++ z)

variable {h : String} {lower : Char → Char}

theorem hostPart_hostHeader (hName : Hostname h) (dot : Bool) {port : Option String}
    (hPort : ∀ p ∈ port, Plain p) : hostPart (hostHeader h dot port) = sentName h dot := by
  have hSent : Plain (sentName h dot) := by
    rw [sentName]
    split
    · exact hName.1.append (by decide)
    · exact hName.1
  cases port with
  | none => exact hostPart_plain hSent
  | some port => exact hostPart_port hSent (hPort port rfl)

theorem before_sentName (h : String) (dot : Bool) :
    before '.' (sentName h dot) = before '.' h := by
  cases dot with
  | false => rfl
  | true =>
      exact before_append '.' h ""

theorem Hostname.before_ne (hName : Hostname h) : before '.' h ≠ "" := by
  intro hEmpty
  rw [before, String.ofList_eq_empty_iff] at hEmpty
  obtain ⟨_, hLabels⟩ := hName
  refine hLabels [] ?_ rfl
  cases hText : chars h with
  | nil => simp
  | cons c cs =>
      rw [hText, List.takeWhile_cons] at hEmpty
      split at hEmpty
      · cases hEmpty
      next hDot =>
        rw [decide_eq_true_eq, not_not] at hDot
        rw [hDot, List.splitOn_cons_eq_if_modifyHead, if_pos (by simp)]
        exact List.mem_cons_self

theorem strippedTo_iff {r : Registry} {z : String} (hName : h ≠ "") :
    StrippedTo lower r h z ↔
      z = normaliseHost lower (stripFirstLabel h) ∧ (r.certOf z).isSome = true := by
  constructor
  · rintro ⟨hz, leaf, hLeaf, _⟩
    exact ⟨hz, Option.isSome_iff_exists.mpr ⟨leaf, hLeaf⟩⟩
  · rintro ⟨hz, hSome⟩
    obtain ⟨leaf, hLeaf⟩ := Option.isSome_iff_exists.mp hSome
    refine ⟨hz, leaf, hLeaf, ?_⟩
    rw [Registry.getCertificate, if_neg hName, Registry.lookup, ← hz, hLeaf]

theorem toLower_eq_empty {s : String} : toLower lower s = "" ↔ s = "" := by
  rw [toLower, String.ofList_eq_empty_iff, List.map_eq_nil_iff, chars_eq, String.toList_eq_nil_iff]

theorem routedUnder_iff {r : Registry} {host z : String}
    (hFirst : before '.' (hostPart host) = before '.' h) (hSome : before '.' h ≠ "") :
    RoutedUnder lower r host h z ↔
      z = after '.' (hostPart host) ∧ z ≠ "" ∧ z ∈ r.suffixes := by
  constructor
  · rintro ⟨hSlug, hMem, hHost⟩
    have hNonempty : extractSlug host r.suffixes ≠ "" := by
      intro hEmpty
      rw [hEmpty, toLower_eq_empty.mpr rfl, eq_comm, toLower_eq_empty] at hSlug
      exact hSome hSlug
    obtain ⟨hBefore, hAfter, _⟩ := (extractSlug_eq hNonempty).mp rfl
    have hCut := eq_append_iff.mpr ⟨mem_of_after_ne hAfter, hBefore, rfl⟩
    have hSame := hHost.symm.trans hCut.1
    have hz : z = after '.' (hostPart host) := by
      simpa [← String.toList_inj] using hSame
    exact ⟨hz, hz ▸ hAfter, hMem⟩
  · rintro ⟨rfl, hAfter, hMem⟩
    have hSlug : extractSlug host r.suffixes = before '.' h :=
      (extractSlug_eq hSome).mpr ⟨hFirst, hAfter, hMem⟩
    have hCut := eq_append_iff.mpr ⟨mem_of_after_ne hAfter, hFirst, rfl⟩
    rw [RoutedUnder, hSlug]
    exact ⟨rfl, hMem, hCut.1⟩

/-- Certificate and route agree when the text behind the first label of the request is the
suffix itself, in its normal form, whenever either of the two has a certificate. -/
theorem certificate_and_route_agree_iff (lower : Char → Char) (r : Registry) {h : String}
    (hName : Hostname h) (dot : Bool) {port : Option String} (hPort : ∀ p ∈ port, Plain p) :
    (∀ z, StrippedTo lower r h z ↔
        (r.certOf z).isSome = true ∧ RoutedUnder lower r (hostHeader h dot port) h z) ↔
      ((r.certOf (normaliseHost lower (stripFirstLabel h))).isSome = true →
        normaliseHost lower (stripFirstLabel h) ≠ "" ∧
          stripFirstLabel (sentName h dot) = normaliseHost lower (stripFirstLabel h)) ∧
      ((r.certOf (stripFirstLabel (sentName h dot))).isSome = true →
        stripFirstLabel (sentName h dot) ≠ "" →
          stripFirstLabel (sentName h dot) = normaliseHost lower (stripFirstLabel h)) := by
  have hPart := hostPart_hostHeader hName dot hPort
  have hSome := hName.before_ne
  have hNonempty : h ≠ "" := by
    rintro rfl
    exact hSome rfl
  have hRouted : ∀ z, RoutedUnder lower r (hostHeader h dot port) h z ↔
      z = stripFirstLabel (sentName h dot) ∧ z ≠ "" ∧ z ∈ r.suffixes := by
    intro z
    rw [routedUnder_iff (by rw [hPart, before_sentName]) hSome, hPart]
    rfl
  simp only [strippedTo_iff hNonempty, hRouted]
  generalize normaliseHost lower (stripFirstLabel h) = chosen
  generalize stripFirstLabel (sentName h dot) = behind
  constructor
  · intro hAgree
    constructor
    · intro hLoaded
      obtain ⟨_, hEq, hNe, _⟩ := (hAgree chosen).mp ⟨rfl, hLoaded⟩
      exact ⟨hNe, hEq.symm⟩
    · intro hLoaded hNe
      have hMem := Registry.mem_suffixes.mpr (Registry.mem_of_certOf hLoaded)
      exact ((hAgree behind).mpr ⟨hLoaded, rfl, hNe, hMem⟩).1
  · rintro ⟨hChosen, hBehind⟩ z
    constructor
    · rintro ⟨rfl, hLoaded⟩
      obtain ⟨hNe, hEq⟩ := hChosen hLoaded
      exact ⟨hLoaded, hEq.symm, hNe, Registry.mem_suffixes.mpr (Registry.mem_of_certOf hLoaded)⟩
    · rintro ⟨hLoaded, rfl, hNe, _⟩
      exact ⟨hBehind hLoaded hNe, hLoaded⟩

/-- One suffix with its certificate. -/
def homeRegistry : Registry :=
  ⟨(∅ : AList fun _ : String => Entry).insert "home.example" ⟨some ⟨0, ["*.home.example"], ""⟩⟩⟩

/-- A name in upper case, or with a dot at its end, gets the certificate of the suffix and is
routed nowhere. -/
theorem name_with_certificate_not_routed :
    (Hostname "app.HOME.example" ∧ Hostname "app.home.example") ∧
      (StrippedTo Char.toLower homeRegistry "app.HOME.example" "home.example" ∧
        ¬ RoutedUnder Char.toLower homeRegistry (hostHeader "app.HOME.example" false none)
          "app.HOME.example" "home.example") ∧
      StrippedTo Char.toLower homeRegistry "app.home.example" "home.example" ∧
        ¬ RoutedUnder Char.toLower homeRegistry (hostHeader "app.home.example" true none)
          "app.home.example" "home.example" := by
  have hNormal : normaliseHost Char.toLower (stripFirstLabel "app.HOME.example") = "home.example" ∧
      normaliseHost Char.toLower (stripFirstLabel "app.home.example") = "home.example" ∧
      (homeRegistry.certOf "home.example").isSome = true := by
    decide +kernel
  have hSlugs : toLower Char.toLower (extractSlug (hostHeader "app.HOME.example" false none)
        homeRegistry.suffixes) ≠ toLower Char.toLower (before '.' "app.HOME.example") ∧
      toLower Char.toLower (extractSlug (hostHeader "app.home.example" true none)
        homeRegistry.suffixes) ≠ toLower Char.toLower (before '.' "app.home.example") := by
    decide +kernel
  obtain ⟨hUpper, hLower, hCert⟩ := hNormal
  refine ⟨by decide +kernel, ⟨(strippedTo_iff (by decide)).mpr ⟨hUpper.symm, hCert⟩, ?_⟩,
    (strippedTo_iff (by decide)).mpr ⟨hLower.symm, hCert⟩, ?_⟩
  · intro hRouted
    exact hSlugs.1 hRouted.1
  · intro hRouted
    exact hSlugs.2 hRouted.1

/-- A name whose suffix is in lower case gets certificate and route, with a port as well. -/
theorem lower_case_name_routed :
    Hostname "App.home.example" ∧ ∀ z, StrippedTo Char.toLower homeRegistry "App.home.example" z ↔
      (homeRegistry.certOf z).isSome = true ∧
        RoutedUnder Char.toLower homeRegistry (hostHeader "App.home.example" false (some "8443"))
          "App.home.example" z := by
  have hName : Hostname "App.home.example" := by decide +kernel
  have hPort : ∀ p ∈ some "8443", Plain p := by decide +kernel
  have hBehind : normaliseHost Char.toLower (stripFirstLabel "App.home.example") ≠ "" ∧
      stripFirstLabel (sentName "App.home.example" false) =
        normaliseHost Char.toLower (stripFirstLabel "App.home.example") := by
    decide +kernel
  exact ⟨hName, (certificate_and_route_agree_iff Char.toLower homeRegistry hName false hPort).mpr
    ⟨fun _ => hBehind, fun _ _ => hBehind.2⟩⟩

end Proxy
