import AtreoAgent.Net.IP
import Mathlib.Algebra.GroupWithZero.Nat
import Mathlib.Data.List.TakeWhile

/-! The text of an IPv6 address is read back as the address. The groups before and after the
ellipsis are read one by one, and the ellipsis stands for the groups that are left out. -/
namespace Net

/-- The octets of groups. -/
def octets (gs : List Nat) : List UInt8 :=
  gs.flatMap fun g => [UInt8.ofNat (g / 256), UInt8.ofNat (g % 256)]

theorem octets_nil : octets [] = [] := rfl

theorem octets_cons (g : Nat) (gs : List Nat) :
    octets (g :: gs) = [UInt8.ofNat (g / 256), UInt8.ofNat (g % 256)] ++ octets gs := rfl

theorem octets_append (gs hs : List Nat) : octets (gs ++ hs) = octets gs ++ octets hs :=
  List.flatMap_append

theorem octets_replicate (n : Nat) : octets (List.replicate n 0) = List.replicate (2 * n) 0 := by
  induction n with
  | zero => rfl
  | succ n ih =>
      rw [List.replicate_succ, octets_cons, ih, Nat.mul_succ]
      rfl

theorem length_octets (gs : List Nat) : (octets gs).length = 2 * gs.length := by
  induction gs with
  | nil => rfl
  | cons g gs ih =>
      rw [octets_cons, List.length_append, ih, List.length_cons, List.length_cons, List.length_cons,
        List.length_nil]
      omega

variable {ip : IP} {n left : Nat} {c : Char} {gs : List Nat} {read : List UInt8}

theorem octets_groups (h : ip.length % 2 = 0) : octets (groups ip) = ip := by
  induction ip using groups.induct with
  | case1 a b rest ih =>
      have hRest : rest.length % 2 = 0 := by
        simp only [List.length_cons] at h
        omega
      have hHigh : (a.toNat * 256 + b.toNat) / 256 = a.toNat := by
        have hb := b.toNat_lt
        omega
      have hLow : (a.toNat * 256 + b.toNat) % 256 = b.toNat := by
        have hb := b.toNat_lt
        omega
      rw [groups, octets_cons, ih hRest, hHigh, hLow, UInt8.ofNat_toNat, UInt8.ofNat_toNat]
      rfl
  | case2 ip hShort =>
      match ip, h with
      | [], _ => rfl
      | a :: b :: rest, _ => exact absurd rfl (hShort a b rest)

theorem length_groups (ip : IP) : (groups ip).length = ip.length / 2 := by
  induction ip using groups.induct with
  | case1 a b rest ih =>
      rw [groups, List.length_cons, ih, List.length_cons, List.length_cons]
      omega
  | case2 ip hShort =>
      match ip with
      | [] => rfl
      | [a] => simp [groups]
      | a :: b :: rest => exact absurd rfl (hShort a b rest)

theorem group_lt {g : Nat} (hg : g ∈ groups ip) : g < 65536 := by
  induction ip using groups.induct with
  | case1 a b rest ih =>
      rw [groups] at hg
      rcases List.mem_cons.mp hg with rfl | hRest
      · have ha := a.toNat_lt
        have hb := b.toNat_lt
        omega
      · exact ih hRest
  | case2 ip hShort =>
      match ip with
      | [] => cases hg
      | [a] => cases hg
      | a :: b :: rest => exact absurd rfl (hShort a b rest)

theorem isHexDigit_of_mem (h : c ∈ hexText n) : isHexDigit c = true := by
  have hDigit : ∀ i : Fin 16, isHexDigit (Nat.digitChar i.val) = true := by decide
  induction n using Nat.strongRecOn with
  | ind n ih =>
      by_cases hSmall : n < 16
      · rw [hexText, Nat.toDigits_of_lt_base hSmall] at h
        rw [List.mem_singleton.mp h]
        exact hDigit ⟨n, hSmall⟩
      · rw [hexText, Nat.toDigits_of_base_le (by omega) (by omega)] at h
        rcases List.mem_append.mp h with hFront | hLast
        · exact ih (n / 16) (by omega) hFront
        · rw [List.mem_singleton.mp hLast]
          exact hDigit ⟨n % 16, Nat.mod_lt n (by omega)⟩

theorem length_hexText {k : Nat} (h : n < 16 ^ (k + 1)) : (hexText n).length ≤ k + 1 := by
  induction k generalizing n with
  | zero =>
      rw [hexText, Nat.toDigits_of_lt_base (by omega)]
      simp
  | succ k ih =>
      by_cases hSmall : n < 16
      · rw [hexText, Nat.toDigits_of_lt_base hSmall]
        simp
      · have hRest := @ih (n / 16) (by omega)
        rw [hexText] at hRest
        rw [hexText, Nat.toDigits_of_base_le (by omega) (by omega), List.length_append]
        simp only [List.length_singleton]
        omega

theorem hexText_ne_nil (n : Nat) : hexText n ≠ [] := by
  by_cases hSmall : n < 16
  · rw [hexText, Nat.toDigits_of_lt_base hSmall]
    simp
  · rw [hexText, Nat.toDigits_of_base_le (by omega) (by omega)]
    simp

/-- One group is read up to the end of the text or to the next colon. -/
theorem takeWhile_hexText (g : Nat) (rest : List Char) (h : ∀ c ∈ rest.head?, c = ':') :
    (hexText g ++ rest).takeWhile isHexDigit = hexText g := by
  rw [List.takeWhile_append_of_pos fun c hc => isHexDigit_of_mem hc]
  cases rest with
  | nil => simp
  | cons c rest =>
      rw [h c rfl, List.takeWhile_cons_of_neg (by decide), List.append_nil]

section Read

variable {left g : Nat} {read : List UInt8} {place : Option Nat} {rest : List Char}

theorem parseGroups_last (hg : g < 65536) :
    parseGroups (left + 1) read place (hexText g) = some (read ++ octets [g], place, []) := by
  have hTake := takeWhile_hexText g [] (by simp)
  have hLength : ¬ 4 < (hexText g).length := Nat.not_lt.mpr (length_hexText (k := 3) hg)
  have hValue := hexNumber_hexText g
  rw [List.append_nil] at hTake
  rw [hexNumber] at hValue
  rw [parseGroups, hTake]
  simp [hexText_ne_nil, hLength, hValue, octets_cons, octets_nil]

theorem parseGroups_colon (hg : g < 65536) (hRest : rest ≠ []) (hHead : rest.head? ≠ some ':') :
    parseGroups (left + 1) read place (hexText g ++ ':' :: rest) =
      parseGroups left (read ++ octets [g]) place rest := by
  have hTake := takeWhile_hexText g (':' :: rest) (by simp)
  have hLength : ¬ 4 < (hexText g).length := Nat.not_lt.mpr (length_hexText (k := 3) hg)
  have hValue := hexNumber_hexText g
  rw [hexNumber] at hValue
  obtain ⟨c, rest, rfl⟩ := List.exists_cons_of_ne_nil hRest
  have hColon : c ≠ ':' := fun h => hHead (by rw [h]; rfl)
  rw [parseGroups, hTake]
  simp only [hexText_ne_nil, hLength, or_self, if_false, List.drop_left, hValue]
  split <;> simp_all [octets_cons, octets_nil]

theorem parseGroups_ellipsis (hg : g < 65536) :
    parseGroups (left + 1) read none (hexText g ++ ':' :: ':' :: rest) =
      if rest = [] then some (read ++ octets [g], some (read ++ octets [g]).length, [])
      else parseGroups left (read ++ octets [g]) (some (read ++ octets [g]).length) rest := by
  have hTake := takeWhile_hexText g (':' :: ':' :: rest) (by simp)
  have hLength : ¬ 4 < (hexText g).length := Nat.not_lt.mpr (length_hexText (k := 3) hg)
  have hValue := hexNumber_hexText g
  rw [hexNumber] at hValue
  rw [parseGroups, hTake]
  simp [hexText_ne_nil, hLength, hValue, octets_cons, octets_nil]

end Read

theorem joinGroups_cons_cons (g h : Nat) (gs : List Nat) :
    joinGroups (g :: h :: gs) = hexText g ++ ':' :: joinGroups (h :: gs) := by
  simp [joinGroups]

theorem joinGroups_singleton (g : Nat) : joinGroups [g] = hexText g := by
  simp [joinGroups]

/-- The text of groups starts with a digit, so not with a colon. -/
theorem exists_joinGroups_cons (h : gs ≠ []) (rest : List Char) :
    ∃ c cs, joinGroups gs ++ rest = c :: cs ∧ c ≠ ':' := by
  obtain ⟨g, gs, rfl⟩ := List.exists_cons_of_ne_nil h
  obtain ⟨c, cs, hText⟩ := List.exists_cons_of_ne_nil (hexText_ne_nil g)
  have hDigit : isHexDigit c = true := isHexDigit_of_mem (n := g) (hText ▸ List.mem_cons_self)
  have hColon : c ≠ ':' := by
    rintro rfl
    exact absurd hDigit (by decide)
  cases gs with
  | nil => exact ⟨c, cs ++ rest, by rw [joinGroups_singleton, hText, List.cons_append], hColon⟩
  | cons g' gs =>
      refine ⟨c, cs ++ ':' :: joinGroups (g' :: gs) ++ rest, ?_, hColon⟩
      rw [joinGroups_cons_cons, hText, List.cons_append, List.cons_append]

theorem parseGroups_join {place : Option Nat} (hSome : gs ≠ []) (hLeft : gs.length ≤ left)
    (hSmall : ∀ g ∈ gs, g < 65536) :
    parseGroups left read place (joinGroups gs) = some (read ++ octets gs, place, []) := by
  induction gs generalizing left read with
  | nil => exact absurd rfl hSome
  | cons g gs ih =>
      obtain ⟨left, rfl⟩ : ∃ n, left = n + 1 := Nat.exists_eq_succ_of_ne_zero (by
        rw [List.length_cons] at hLeft
        omega)
      have hg := hSmall g List.mem_cons_self
      cases gs with
      | nil => rw [joinGroups_singleton, parseGroups_last hg]
      | cons h gs =>
          obtain ⟨c, cs, hText, hColon⟩ := exists_joinGroups_cons (List.cons_ne_nil h gs) []
          rw [List.append_nil] at hText
          rw [joinGroups_cons_cons,
            parseGroups_colon hg (by simp [hText]) (by simp [hText, hColon]),
            ih (List.cons_ne_nil h gs) (Nat.le_of_succ_le_succ hLeft)
              fun x hx => hSmall x (List.mem_cons_of_mem g hx)]
          rw [List.append_assoc, ← octets_append, List.singleton_append]

theorem parseGroups_join_ellipsis {rest : List Char} (hSome : gs ≠ []) (hLeft : gs.length ≤ left)
    (hSmall : ∀ g ∈ gs, g < 65536) :
    parseGroups left read none (joinGroups gs ++ ':' :: ':' :: rest) =
      if rest = [] then some (read ++ octets gs, some (read ++ octets gs).length, [])
      else parseGroups (left - gs.length) (read ++ octets gs) (some (read ++ octets gs).length)
        rest := by
  induction gs generalizing left read with
  | nil => exact absurd rfl hSome
  | cons g gs ih =>
      obtain ⟨left, rfl⟩ : ∃ n, left = n + 1 := Nat.exists_eq_succ_of_ne_zero (by
        rw [List.length_cons] at hLeft
        omega)
      have hg := hSmall g List.mem_cons_self
      cases gs with
      | nil =>
          rw [joinGroups_singleton, parseGroups_ellipsis hg]
          rfl
      | cons h gs =>
          obtain ⟨c, cs, hText, hColon⟩ :=
            exists_joinGroups_cons (List.cons_ne_nil h gs) (':' :: ':' :: rest)
          rw [joinGroups_cons_cons, List.append_assoc, List.cons_append,
            parseGroups_colon hg (by simp [hText]) (by simp [hText, hColon]),
            ih (List.cons_ne_nil h gs) (Nat.le_of_succ_le_succ hLeft)
              fun x hx => hSmall x (List.mem_cons_of_mem g hx)]
          rw [List.append_assoc, ← octets_append, List.singleton_append, List.length_cons (a := g),
            Nat.add_sub_add_right]

/-- The zeros from a place on can be cut out. -/
theorem groups_eq_zeros (gs : List Nat) (i : Nat) :
    gs = gs.take i ++ List.replicate ((gs.drop i).takeWhile (· = 0)).length 0 ++
      gs.drop (i + ((gs.drop i).takeWhile (· = 0)).length) := by
  have hZero : (gs.drop i).takeWhile (· = 0) =
      List.replicate ((gs.drop i).takeWhile (· = 0)).length 0 :=
    List.eq_replicate_iff.mpr ⟨rfl, fun g hg => by simpa using List.mem_takeWhile_imp hg⟩
  have hRest := @List.drop_left _ ((gs.drop i).takeWhile (· = 0)) ((gs.drop i).dropWhile (· = 0))
  rw [List.takeWhile_append_dropWhile] at hRest
  rw [← hZero, ← List.drop_drop, hRest, List.append_assoc, List.takeWhile_append_dropWhile,
    List.take_append_drop]

/-- The groups that the ellipsis stands for are zero. -/
theorem groups_eq_zeroRun (gs : List Nat) :
    gs = gs.take (zeroRun gs).1 ++ List.replicate (zeroRun gs).2 0 ++
      gs.drop ((zeroRun gs).1 + (zeroRun gs).2) := by
  -- Every run the loop keeps is one of these.
  refine List.foldlRecOn (motive := fun run : Nat × Nat =>
    gs = gs.take run.1 ++ List.replicate run.2 0 ++ gs.drop (run.1 + run.2)) _ _ (by simp) ?_
  intro best hBest i _
  dsimp only
  split
  · exact groups_eq_zeros gs i
  · exact hBest

/-- Groups in front of and behind an ellipsis of `n` groups make an address. -/
theorem expand_ellipsis {front back : List Nat} (hn : n ≠ 0)
    (hLength : front.length + n + back.length = 8) :
    expand (octets front ++ octets back, some (octets front).length, []) =
      some (octets (front ++ List.replicate n 0 ++ back)) := by
  have hShort : (octets front ++ octets back).length = 16 - 2 * n := by
    rw [List.length_append, length_octets, length_octets]
    omega
  have hMissing : 16 - (16 - 2 * n) = 2 * n := by omega
  rw [expand, if_pos (by omega), List.take_left, List.drop_left, hShort, hMissing, octets_append,
    octets_append, octets_replicate]

theorem parseIPv6_of_head (cs : List Char) (h : c ≠ ':') :
    parseIPv6 (c :: cs) = (parseGroups 8 [] none (c :: cs)).bind expand := by
  unfold parseIPv6
  split <;> simp_all

theorem parseIPv6_of_ellipsis {cs : List Char} (h : cs ≠ []) :
    parseIPv6 (':' :: ':' :: cs) = (parseGroups 8 [] (some 0) cs).bind expand := by
  unfold parseIPv6
  split <;> simp_all

/-- Eight groups are read back. -/
theorem parseIPv6_join (hLength : gs.length = 8) (hSmall : ∀ g ∈ gs, g < 65536) :
    parseIPv6 (joinGroups gs) = some (octets gs) := by
  have hSome : gs ≠ [] := fun hNil => by simp [hNil] at hLength
  obtain ⟨c, cs, hText, hColon⟩ := exists_joinGroups_cons hSome []
  rw [List.append_nil] at hText
  rw [hText, parseIPv6_of_head cs hColon, ← hText, parseGroups_join hSome (by omega) hSmall,
    List.nil_append]
  simp [expand, length_octets, hLength]

/-- What follows the ellipsis is read after what comes before it. -/
theorem parseGroups_back {place : Option Nat} (hLeft : gs.length ≤ left)
    (hSmall : ∀ g ∈ gs, g < 65536) :
    (if joinGroups gs = [] then some (read, place, [])
      else parseGroups left read place (joinGroups gs)) = some (read ++ octets gs, place, []) := by
  by_cases hNone : gs = []
  · simp [hNone, joinGroups, octets_nil]
  · obtain ⟨c, cs, hText, _⟩ := exists_joinGroups_cons hNone []
    rw [List.append_nil] at hText
    rw [if_neg (by simp [hText]), parseGroups_join hNone hLeft hSmall]

/-- Groups with an ellipsis between them are read back. -/
theorem parseIPv6_join_ellipsis {front back : List Nat} (hn : n ≠ 0)
    (hLength : front.length + n + back.length = 8) (hFront : ∀ g ∈ front, g < 65536)
    (hBack : ∀ g ∈ back, g < 65536) :
    parseIPv6 (joinGroups front ++ ':' :: ':' :: joinGroups back) =
      some (octets (front ++ List.replicate n 0 ++ back)) := by
  have hExpand := expand_ellipsis hn hLength
  by_cases hNone : front = []
  · subst hNone
    have hTail := @parseGroups_back 8 back [] (some 0) (by omega) hBack
    rw [show joinGroups [] = [] from rfl, List.nil_append, ← hExpand]
    by_cases hEnd : joinGroups back = []
    · rw [if_pos hEnd] at hTail
      rw [hEnd]
      exact congrArg (Option.bind · expand) hTail
    · rw [if_neg hEnd] at hTail
      rw [parseIPv6_of_ellipsis hEnd, hTail]
      rfl
  · obtain ⟨c, cs, hText, hColon⟩ := exists_joinGroups_cons hNone (':' :: ':' :: joinGroups back)
    rw [hText, parseIPv6_of_head cs hColon, ← hText,
      parseGroups_join_ellipsis hNone (by omega) hFront, List.nil_append,
      parseGroups_back (by omega) hBack]
    exact hExpand

/-- The text of an address is read back. -/
theorem parseIPv6_format (h : ip.length = 16) : parseIPv6 (formatIPv6 ip) = some ip := by
  have hOctets : octets (groups ip) = ip := octets_groups (by omega)
  have hLength : (groups ip).length = 8 := by rw [length_groups, h]
  have hSmall : ∀ g ∈ groups ip, g < 65536 := fun g => group_lt
  have hRun := groups_eq_zeroRun (groups ip)
  rw [formatIPv6]
  split
  next => rw [parseIPv6_join hLength hSmall, hOctets]
  next hZero =>
    generalize zeroRun (groups ip) = run at hRun hZero
    obtain ⟨start, n⟩ := run
    dsimp only at hRun hZero ⊢
    generalize (groups ip).take start = front at hRun ⊢
    generalize (groups ip).drop (start + n) = back at hRun ⊢
    rw [hRun] at hLength hSmall
    rw [List.length_append, List.length_append, List.length_replicate] at hLength
    rw [List.append_assoc, List.cons_append, List.cons_append, List.nil_append,
      parseIPv6_join_ellipsis hZero hLength
        (fun g hg => hSmall g (List.mem_append_left _ (List.mem_append_left _ hg)))
        (fun g hg => hSmall g (List.mem_append_right _ hg)), ← hRun, hOctets]

/-- The text of groups has digits and colons only. -/
theorem mem_joinGroups (h : c ∈ joinGroups gs) : isHexDigit c = true ∨ c = ':' := by
  induction gs with
  | nil => cases h
  | cons g gs ih =>
      cases gs with
      | nil =>
          rw [joinGroups_singleton] at h
          exact Or.inl (isHexDigit_of_mem h)
      | cons g' gs =>
          rw [joinGroups_cons_cons] at h
          rcases List.mem_append.mp h with hDigit | hRest
          · exact Or.inl (isHexDigit_of_mem hDigit)
          · rcases List.mem_cons.mp hRest with rfl | hRest
            · exact Or.inr rfl
            · exact ih hRest

theorem mem_formatIPv6 (h : c ∈ formatIPv6 ip) : isHexDigit c = true ∨ c = ':' := by
  rw [formatIPv6] at h
  split at h
  · exact mem_joinGroups h
  · rcases List.mem_append.mp h with hFront | hBack
    · rcases List.mem_append.mp hFront with hFront | hColon
      · exact mem_joinGroups hFront
      · exact Or.inr (by simpa using hColon)
    · exact mem_joinGroups hBack

theorem colon_mem_formatIPv6 (h : ip.length = 16) : ':' ∈ formatIPv6 ip := by
  rw [formatIPv6]
  split
  · have hLength : (groups ip).length = 8 := by rw [length_groups, h]
    match groups ip, hLength with
    | g :: g' :: gs, _ =>
        rw [joinGroups_cons_cons]
        exact List.mem_append_right _ List.mem_cons_self
  · simp

/-- An IPv6 address is read back from its text. -/
theorem parseIP_ipString (h : ip.length = 16) (hV6 : to4 ip = none) :
    parseIP (ipString ip) = some ip := by
  have hFirst : (formatIPv6 ip).find? (fun c => c = '.' ∨ c = ':' ∨ c = '%') = some ':' := by
    cases hFind : (formatIPv6 ip).find? (fun c => c = '.' ∨ c = ':' ∨ c = '%') with
    | none =>
        have hNone := List.find?_eq_none.mp hFind ':' (colon_mem_formatIPv6 h)
        simp at hNone
    | some c =>
        have hSign := List.find?_some hFind
        rcases mem_formatIPv6 (List.mem_of_find?_eq_some hFind) with hDigit | rfl
        · simp only [decide_eq_true_eq] at hSign
          rcases hSign with rfl | rfl | rfl
          · exact absurd hDigit (by decide)
          · rfl
          · exact absurd hDigit (by decide)
        · rfl
  have hZone : '%' ∉ formatIPv6 ip := fun hMem => by
    rcases mem_formatIPv6 hMem with hDigit | hColon
    · exact absurd hDigit (by decide)
    · exact absurd hColon (by decide)
  simp only [parseIP, ipString, hV6, String.toList_ofList, hFirst, if_neg hZone,
    parseIPv6_format h]

/-- The text of an IPv6 address holds hexadecimal digits and colons only. -/
theorem notMem_ipString (hV6 : to4 ip = none) {sign : Char} (hDigit : isHexDigit sign = false)
    (hColon : sign ≠ ':') : sign ∉ (ipString ip).toList := by
  rw [ipString, hV6, String.toList_ofList]
  intro hMem
  rcases mem_formatIPv6 hMem with h | h
  · rw [hDigit] at h
    cases h
  · exact hColon h

end Net
