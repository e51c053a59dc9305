import AtreoAgent.Certs.Registry
import AtreoAgent.Net.HostPort

/-! Which app a host name stands for (`ExtractSlug`). The slug is one label in front of a
registered suffix, so it is the first label of the host whatever the order of the suffixes. -/
namespace Proxy

open Codec Net

/-- The label in front of a suffix, if the host is one label and the suffix. -/
def slugUnder (host suf : String) : Option String :=
  let full := "." ++ suf
  if suf = "" then none
  else if (chars full).isSuffixOf (chars host) = false then none
  else
    let slug := trimEnd full host
    if slug = "" ∨ '.' ∈ chars slug then none else some slug

def extractSlug (host : String) (suffixes : List String) : String :=
  let host := hostPart host
  if host = "" ∨ suffixes = [] then ""
  else ((suffixes.insertionSort Certs.Before).findSome? (slugUnder host)).getD ""

section Under

variable {host suf slug : String}

theorem chars_full (suf : String) : chars ("." ++ suf) = '.' :: suf.toList := by simp

theorem chars_under (slug suf : String) :
    chars (slug ++ (String.singleton '.' ++ suf)) = slug.toList ++ '.' :: suf.toList := by
  simp

theorem full_isSuffixOf_iff :
    (chars ("." ++ suf)).isSuffixOf (chars host) = true ↔
      ∃ label, host = label ++ (String.singleton '.' ++ suf) := by
  rw [List.isSuffixOf_iff_suffix, chars_full]
  constructor
  · rintro ⟨front, hFront⟩
    refine ⟨String.ofList front, ?_⟩
    rw [← String.toList_inj, ← chars_eq host, ← hFront]
    simp
  · rintro ⟨label, rfl⟩
    exact ⟨label.toList, (chars_under label suf).symm⟩

theorem trimEnd_full (slug suf : String) :
    trimEnd ("." ++ suf) (slug ++ (String.singleton '.' ++ suf)) = slug := by
  rw [trimEnd, chars_under, chars_full, if_pos (by simp)]
  simp

theorem under_inj {label : String} :
    label ++ (String.singleton '.' ++ suf) = slug ++ (String.singleton '.' ++ suf) ↔
      label = slug := by
  simp [← String.toList_inj]

theorem slugUnder_eq_some :
    slugUnder host suf = some slug ↔
      (suf ≠ "" ∧ slug ≠ "") ∧ host = slug ++ (String.singleton '.' ++ suf) ∧ '.' ∉ chars slug := by
  rw [slugUnder]
  by_cases hSuf : suf = ""
  · simp [hSuf]
  by_cases hEnds : ∃ label, host = label ++ (String.singleton '.' ++ suf)
  · have hSuffix := full_isSuffixOf_iff.mpr hEnds
    obtain ⟨label, rfl⟩ := hEnds
    rw [if_neg hSuf, hSuffix, if_neg Bool.noConfusion]
    dsimp only
    rw [trimEnd_full, under_inj, Option.ite_none_left_eq_some, not_or, Option.some_inj]
    constructor
    · rintro ⟨⟨hLabel, hDot⟩, rfl⟩
      exact ⟨⟨hSuf, hLabel⟩, rfl, hDot⟩
    · rintro ⟨⟨_, hLabel⟩, rfl, hDot⟩
      exact ⟨⟨hLabel, hDot⟩, rfl⟩
  · have hNot := Bool.eq_false_iff.mpr (mt full_isSuffixOf_iff.mp hEnds)
    rw [if_neg hSuf, if_pos hNot]
    constructor
    · intro h
      cases h
    · rintro ⟨_, hHost, _⟩
      exact absurd ⟨slug, hHost⟩ hEnds

end Under

variable {host : String} {suffixes : List String}

/-- The slug of a host is its first label, if what follows is one of the suffixes. -/
theorem extractSlug_eq {slug : String} (hSlug : slug ≠ "") :
    extractSlug host suffixes = slug ↔
      before '.' (hostPart host) = slug ∧ after '.' (hostPart host) ≠ "" ∧
        after '.' (hostPart host) ∈ suffixes := by
  have hUnder : ∀ suf label, slugUnder (hostPart host) suf = some label ↔
      (suf ≠ "" ∧ label ≠ "") ∧ '.' ∈ chars (hostPart host) ∧ before '.' (hostPart host) = label ∧
        after '.' (hostPart host) = suf := by
    intro suf label
    rw [slugUnder_eq_some, eq_append_iff]
  constructor
  · intro h
    rw [extractSlug] at h
    split at h
    · exact absurd h.symm hSlug
    · cases hFound : (suffixes.insertionSort Certs.Before).findSome? (slugUnder (hostPart host)) with
      | none =>
          rw [hFound] at h
          exact absurd h.symm hSlug
      | some label =>
          rw [hFound, Option.getD_some] at h
          subst h
          obtain ⟨suf, hMem, hSome⟩ := List.exists_of_findSome?_eq_some hFound
          obtain ⟨⟨hSuf, _⟩, _, hBefore, rfl⟩ := (hUnder suf label).mp hSome
          exact ⟨hBefore, hSuf, (List.mem_insertionSort Certs.Before).mp hMem⟩
  · rintro ⟨hBefore, hSuf, hMem⟩
    have hDot : '.' ∈ chars (hostPart host) := mem_of_after_ne hSuf
    have hHost : hostPart host ≠ "" := by
      intro hEmpty
      rw [hEmpty] at hDot
      simp at hDot
    have hList : suffixes ≠ [] := List.ne_nil_of_mem hMem
    have hHit := (hUnder _ slug).mpr ⟨⟨hSuf, hSlug⟩, hDot, hBefore, rfl⟩
    rw [extractSlug, if_neg (not_or.mpr ⟨hHost, hList⟩)]
    cases hFound : (suffixes.insertionSort Certs.Before).findSome? (slugUnder (hostPart host)) with
    | none =>
        have hMiss := List.findSome?_eq_none_iff.mp hFound _
          ((List.mem_insertionSort Certs.Before).mpr hMem)
        rw [hHit] at hMiss
        cases hMiss
    | some label =>
        obtain ⟨suf, _, hSome⟩ := List.exists_of_findSome?_eq_some hFound
        obtain ⟨_, _, hLabel, _⟩ := (hUnder suf label).mp hSome
        rw [Option.getD_some, ← hLabel, hBefore]

/-- Being one label under a listed suffix, in the words of the host. -/
theorem extractSlug_eq_iff_under {slug : String} (hSlug : slug ≠ "") :
    extractSlug host suffixes = slug ↔
      ∃ suf ∈ suffixes, suf ≠ "" ∧ hostPart host = slug ++ ("." ++ suf) ∧ '.' ∉ chars slug := by
  have hUnder : ∀ suf, hostPart host = slug ++ ("." ++ suf) ∧ '.' ∉ chars slug ↔
      '.' ∈ chars (hostPart host) ∧ before '.' (hostPart host) = slug ∧
        after '.' (hostPart host) = suf := by
    intro suf
    have hDot : "." = String.singleton '.' := by decide
    rw [hDot, eq_append_iff]
  rw [extractSlug_eq hSlug]
  constructor
  · rintro ⟨hBefore, hSuf, hMem⟩
    exact ⟨_, hMem, hSuf, (hUnder _).mpr ⟨mem_of_after_ne hSuf, hBefore, rfl⟩⟩
  · rintro ⟨suf, hMem, hSuf, hHost⟩
    obtain ⟨_, hBefore, rfl⟩ := (hUnder suf).mp hHost
    exact ⟨hBefore, hSuf, hMem⟩

/-- Two lists that both give a slug give the first label of the host. -/
theorem extractSlug_unique {others : List String} (hSlug : extractSlug host suffixes ≠ "")
    (hOther : extractSlug host others ≠ "") :
    extractSlug host others = extractSlug host suffixes := by
  have hFirst := ((extractSlug_eq hSlug).mp rfl).1
  have hSecond := ((extractSlug_eq hOther).mp rfl).1
  rw [← hSecond, hFirst]

/-- Only which suffixes are listed counts. -/
theorem extractSlug_congr {others : List String} (hSame : ∀ suf, suf ∈ others ↔ suf ∈ suffixes) :
    extractSlug host others = extractSlug host suffixes := by
  by_cases hEmpty : extractSlug host suffixes = ""
  · by_contra hOther
    rw [hEmpty] at hOther
    have hListed := (extractSlug_eq hOther).mp rfl
    rw [hSame, ← extractSlug_eq hOther, hEmpty] at hListed
    exact hOther hListed.symm
  · rw [extractSlug_eq hEmpty, hSame, ← extractSlug_eq hEmpty]

/-- A slug is exactly one label under a listed suffix. It depends neither on which suffixes
are listed beside it nor on their order or number. -/
theorem extractSlug_one_label (host : String) (suffixes : List String) :
    (∀ slug, slug ≠ "" → (extractSlug host suffixes = slug ↔
      ∃ suf ∈ suffixes, suf ≠ "" ∧ hostPart host = slug ++ ("." ++ suf) ∧ '.' ∉ chars slug)) ∧
    (∀ others, extractSlug host suffixes ≠ "" → extractSlug host others ≠ "" →
      extractSlug host others = extractSlug host suffixes) ∧
    (∀ others, (∀ suf, suf ∈ others ↔ suf ∈ suffixes) →
      extractSlug host others = extractSlug host suffixes) := by
  refine ⟨fun slug hSlug => extractSlug_eq_iff_under hSlug, ?_, ?_⟩
  · intro others hSlug hOther
    exact extractSlug_unique hSlug hOther
  · intro others hSame
    exact extractSlug_congr hSame

end Proxy
