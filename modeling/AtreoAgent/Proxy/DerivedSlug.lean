import AtreoAgent.Acl.Access
import AtreoAgent.Codec.Labels
import AtreoAgent.Proxy.Slug

/-! Slugs taken from names (`Slugify`). The loop keeps letters and digits and puts one hyphen for
all that stands between them, so that a slug is a single label and the proxy reads it back from
the host. -/
namespace Atreolink

open Codec

/-- A character that the loop of `slugify` keeps. -/
def SlugChar (c : Char) : Prop := ('a' ≤ c ∧ c ≤ 'z') ∨ ('0' ≤ c ∧ c ≤ '9')

instance : DecidablePred SlugChar := fun _ => inferInstanceAs (Decidable (_ ∨ _))

/-- Runs of letters and digits joined by single hyphens, in the way in which the loop adds to
them. -/
inductive SlugText : List Char → Prop where
  | first {c : Char} (hc : SlugChar c) : SlugText [c]
  | next {r : List Char} {c : Char} (hr : SlugText r) (hc : SlugChar c) : SlugText (r ++ [c])
  | hyphen {r : List Char} {c : Char} (hr : SlugText r) (hc : SlugChar c) :
      SlugText (r ++ ['-'] ++ [c])

/-- What the loop holds: nothing yet, a slug, or a slug with a hyphen behind it. -/
inductive SlugState : List Char × Bool → Prop where
  | empty : SlugState ([], false)
  | text {r : List Char} (hr : SlugText r) : SlugState (r, false)
  | pending {r : List Char} (hr : SlugText r) : SlugState (r ++ ['-'], true)

variable {r : List Char} {c : Char}

theorem SlugText.ne_nil (h : SlugText r) : r ≠ [] := by
  cases h <;> simp

theorem SlugText.getLast?_ne (h : SlugText r) : r.getLast? ≠ some '-' := by
  have hHyphen : ¬SlugChar '-' := by decide
  have hNe : ∀ {c : Char}, SlugChar c → c ≠ '-' := by
    rintro c hc rfl
    exact hHyphen hc
  cases h with
  | first hc => simpa using hNe hc
  | next _ hc => simpa using hNe hc
  | hyphen _ hc => simpa using hNe hc

theorem SlugText.mem (h : SlugText r) : ∀ c ∈ r, SlugChar c ∨ c = '-' := by
  induction h with
  | first hc => exact List.forall_mem_singleton.mpr (Or.inl hc)
  | next _ hc ih =>
      exact List.forall_mem_append.mpr ⟨ih, List.forall_mem_singleton.mpr (Or.inl hc)⟩
  | hyphen _ hc ih =>
      have hHyphen := List.forall_mem_append.mpr ⟨ih, List.forall_mem_singleton.mpr (Or.inr rfl)⟩
      exact List.forall_mem_append.mpr ⟨hHyphen, List.forall_mem_singleton.mpr (Or.inl hc)⟩

/-- One or more runs of lower case letters and digits, joined by single hyphens. -/
def JoinedRuns (cs : List Char) : Prop :=
  ∃ runs : List (List Char), runs ≠ [] ∧ (∀ run ∈ runs, run ≠ [] ∧ ∀ c ∈ run, SlugChar c) ∧
    cs = ['-'].intercalate runs

theorem SlugText.joinedRuns (h : SlugText r) : JoinedRuns r := by
  -- A letter goes to the last run, or begins the next one behind a hyphen.
  suffices hRuns : ∃ (runs : List (List Char)) (last : List Char),
      (∀ run ∈ runs ++ [last], run ≠ [] ∧ ∀ c ∈ run, SlugChar c) ∧
        r = ['-'].intercalate (runs ++ [last]) by
    obtain ⟨runs, last, hAll, hText⟩ := hRuns
    exact ⟨runs ++ [last], by simp, hAll, hText⟩
  induction h with
  | @first c hc => exact ⟨[], [c], by simpa using hc, by simp⟩
  | @next r c _ hc ih =>
      obtain ⟨runs, last, hAll, rfl⟩ := ih
      obtain ⟨hRuns, hLast⟩ := List.forall_mem_append.mp hAll
      obtain ⟨_, hChars⟩ := List.forall_mem_singleton.mp hLast
      have hLonger : ∀ d ∈ last ++ [c], SlugChar d :=
        List.forall_mem_append.mpr ⟨hChars, List.forall_mem_singleton.mpr hc⟩
      refine ⟨runs, last ++ [c], ?_, ?_⟩
      · exact List.forall_mem_append.mpr
          ⟨hRuns, List.forall_mem_singleton.mpr ⟨by simp, hLonger⟩⟩
      · cases runs with
        | nil => simp
        | cons run runs =>
            rw [intercalate_concat '-' (by simp), intercalate_concat '-' (by simp)]
            simp
  | @hyphen r c _ hc ih =>
      obtain ⟨runs, last, hAll, rfl⟩ := ih
      refine ⟨runs ++ [last], [c], ?_, ?_⟩
      · exact List.forall_mem_append.mpr
          ⟨hAll, List.forall_mem_singleton.mpr ⟨by simp, List.forall_mem_singleton.mpr hc⟩⟩
      · rw [@intercalate_concat Char '-' (runs ++ [last]) (by simp)]
        simp

theorem slugStep_char (hc : SlugChar c) (r : List Char) (lastHyphen : Bool) :
    slugStep (r, lastHyphen) c = (r ++ [c], false) :=
  if_pos hc

theorem slugStep_other (hc : ¬SlugChar c) (r : List Char) (lastHyphen : Bool) :
    slugStep (r, lastHyphen) c =
      if !lastHyphen && r ≠ [] then (r ++ ['-'], true) else (r, lastHyphen) :=
  if_neg hc

theorem slugStep_hyphen (hr : r ≠ []) (hc : ¬SlugChar c) :
    slugStep (r, false) c = (r ++ ['-'], true) := by
  rw [slugStep_other hc]
  simp [hr]

theorem slugState_step {state : List Char × Bool} (h : SlugState state) (c : Char) :
    SlugState (slugStep state c) := by
  by_cases hc : SlugChar c
  · cases h with
    | empty => exact slugStep_char hc [] false ▸ SlugState.text (.first hc)
    | text hr => exact slugStep_char hc _ false ▸ SlugState.text (hr.next hc)
    | pending hr => exact slugStep_char hc _ true ▸ SlugState.text (hr.hyphen hc)
  · cases h with
    | empty =>
        rw [slugStep_other hc]
        exact .empty
    | text hr =>
        rw [slugStep_hyphen hr.ne_nil hc]
        exact .pending hr
    | pending hr =>
        rw [slugStep_other hc]
        exact .pending hr

theorem slugState_foldl {state : List Char × Bool} (h : SlugState state) (cs : List Char) :
    SlugState (cs.foldl slugStep state) := by
  induction cs generalizing state with
  | nil => exact h
  | cons c cs ih => exact ih (slugState_step h c)

/-- The loop leaves a slug as it is. -/
theorem foldl_slugText (h : SlugText r) : r.foldl slugStep ([], false) = (r, false) := by
  have hHyphen : ¬SlugChar '-' := by decide
  induction h with
  | first hc => exact slugStep_char hc [] false
  | next _ hc ih =>
      rw [List.foldl_append, ih]
      exact slugStep_char hc _ false
  | hyphen hr hc ih =>
      simp only [List.foldl_append, List.foldl_cons, List.foldl_nil, ih]
      rw [slugStep_hyphen hr.ne_nil hHyphen]
      exact slugStep_char hc _ true

theorem slugify_text (lower : Char → Char) (name : String) :
    slugify lower name = "" ∨ SlugText (chars (slugify lower name)) := by
  have hState := slugState_foldl SlugState.empty (chars (toLower lower (trimSpace name)))
  rw [slugify]
  generalize (chars (toLower lower (trimSpace name))).foldl slugStep ([], false) = state at hState
  cases hState with
  | empty => exact Or.inl (by simp)
  | text hr =>
      refine Or.inr ?_
      rw [if_neg hr.getLast?_ne]
      simpa using hr
  | pending hr =>
      refine Or.inr ?_
      simpa using hr

/-- A slug is derived from itself. -/
theorem slugify_of_slugText {lower : Char → Char} (hLower : ∀ c, SlugChar c ∨ c = '-' → lower c = c)
    {s : String} (h : SlugText (chars s)) : slugify lower s = s := by
  have hWhite : ∀ c ∈ chars s, isWhite c = false := by
    intro c hc
    have hRange : 0x2D ≤ c.toNat ∧ c.toNat ≤ 0x7A := by
      rcases h.mem c hc with (⟨hLow, hHigh⟩ | ⟨hLow, hHigh⟩) | rfl
      · exact ⟨Nat.le_trans (by decide) (Char.le_def.mp hLow), Char.le_def.mp hHigh⟩
      · exact ⟨Nat.le_trans (by decide) (Char.le_def.mp hLow),
          Nat.le_trans (Char.le_def.mp hHigh) (by decide)⟩
      · decide
    simp only [isWhite, List.mem_cons, List.not_mem_nil, or_false, Bool.decide_or,
      Bool.or_eq_false_iff, decide_eq_false_iff_not, Bool.and_eq_false_imp, decide_eq_true_eq,
      not_le]
    omega
  have hFixed : ∀ c ∈ chars s, lower c = c := fun c hc => hLower c (h.mem c hc)
  rw [slugify, trimSpace_of_no_white hWhite, toLower_of_fixed hFixed, foldl_slugText h,
    if_neg h.getLast?_ne]
  simp

end Atreolink

namespace Proxy

open Codec Net Atreolink

/-- A slug in front of a suffix is read back. -/
theorem extractSlug_slugText {slug suf : String} {suffixes : List String}
    (hSlug : SlugText (chars slug)) (hMem : suf ∈ suffixes) (hSuf : suf ≠ "")
    (hColon : ':' ∉ chars suf) : extractSlug (slug ++ "." ++ suf) suffixes = slug := by
  have hSign : ∀ c ∈ ['.', ':'], c ∉ chars slug := by
    intro c hc hIn
    have hOther : ¬(SlugChar c ∨ c = '-') := by
      simp only [List.mem_cons, List.not_mem_nil, or_false] at hc
      rcases hc with rfl | rfl <;> decide
    exact hOther (hSlug.mem c hIn)
  have hNe : slug ≠ "" := by
    rintro rfl
    exact hSlug.ne_nil (by simp)
  have hHost : hostPart (slug ++ "." ++ suf) = slug ++ "." ++ suf := by
    refine hostPart_of_no_colon ?_
    have hSlugColon := hSign ':' (by simp)
    simp only [chars_eq] at hSlugColon hColon
    simp [hSlugColon, hColon]
  refine (extractSlug_eq_iff_under hNe).mpr ⟨suf, hMem, hSuf, ?_, hSign '.' (by simp)⟩
  rw [hHost, String.append_assoc]

/-- What `Slugify` returns for any name is empty or runs of lower case letters and digits with
single hyphens between them, it is its own slug, and in front of a registered suffix it is what
the proxy takes for the slug of the host. -/
theorem derived_slug_single_label {lower : Char → Char}
    (hLower : ∀ c, SlugChar c ∨ c = '-' → lower c = c) (name : String) :
    let slug := slugify lower name
    (slug = "" ∨ JoinedRuns (chars slug)) ∧ slugify lower slug = slug ∧
      (slug ≠ "" → ∀ (suffixes : List String) (suf : String), suf ∈ suffixes → suf ≠ "" →
        ':' ∉ chars suf → extractSlug (slug ++ "." ++ suf) suffixes = slug) := by
  intro slug
  rcases slugify_text lower name with hEmpty | hText
  · have hSlug : slug = "" := hEmpty
    refine ⟨Or.inl hSlug, ?_, fun hNe => absurd hSlug hNe⟩
    rw [hSlug]
    rfl
  · refine ⟨Or.inr hText.joinedRuns, slugify_of_slugText hLower hText, ?_⟩
    intro _ suffixes suf hMem hSuf hColon
    exact extractSlug_slugText hText hMem hSuf hColon

/-- Signs at the ends are dropped, and several between two words are one hyphen. -/
theorem home_media_single_label :
    slugify Char.toLower " (Home -- Media 2)" = "home-media-2" ∧
    extractSlug "home-media-2.lan.example.org" ["example.org", "lan.example.org"] =
      "home-media-2" := by
  have hLower : ∀ c, SlugChar c ∨ c = '-' → c.toLower = c := by
    intro c hc
    refine dif_neg ?_
    rintro ⟨hUpperA, hUpperZ⟩
    rcases hc with (⟨hLow, _⟩ | ⟨_, hHigh⟩) | rfl
    · exact absurd (UInt32.le_trans hLow hUpperZ) (by decide)
    · exact absurd (UInt32.le_trans hUpperA hHigh) (by decide)
    · exact absurd hUpperA (by decide)
  have hName : slugify Char.toLower " (Home -- Media 2)" = "home-media-2" := by decide +kernel
  have hSlug := (derived_slug_single_label hLower " (Home -- Media 2)").2.2
  simp only [hName] at hSlug
  exact ⟨hName, hSlug (by decide) _ "lan.example.org" (by simp) (by decide) (by decide)⟩

end Proxy
