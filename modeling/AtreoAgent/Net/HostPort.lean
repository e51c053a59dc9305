import AtreoAgent.Codec.Text
import AtreoAgent.Net.IP

/-! Addresses with a port (`net.SplitHostPort`, `net.JoinHostPort`). A host with colons in it stands in
brackets. -/
namespace Net

open Codec

/-- The host and the port. -/
def splitHostPort (s : String) : Option (String × String) :=
  let cs := chars s
  let port := afterColon cs
  let front := cs.take (cs.length - (port.length + 1))
  if ':' ∉ cs then none
  else if cs.head? = some '[' then
    -- The first closing bracket has to stand just before the last colon.
    let stop := (cs.takeWhile (· ≠ ']')).length
    if stop + 1 ≠ front.length ∨ '[' ∈ cs.drop 1 ∨ ']' ∈ cs.drop (stop + 1) then none
    else some (String.ofList ((cs.take stop).drop 1), String.ofList port)
  else if ':' ∈ front ∨ '[' ∈ cs ∨ ']' ∈ cs then none
  else some (String.ofList front, String.ofList port)

/-- A host with colons is put in brackets. -/
def joinHostPort (host port : String) : String :=
  if ':' ∈ chars host then "[" ++ host ++ "]:" ++ port else host ++ ":" ++ port

/-- The host without its port, if it has one. -/
def hostPart (host : String) : String := (splitHostPort host).elim host Prod.fst

/-- A text without the signs that `splitHostPort` looks for. -/
def Plain (s : String) : Prop := ∀ c ∈ [':', '[', ']'], c ∉ chars s

instance (s : String) : Decidable (Plain s) := List.decidableBAll (· ∉ chars s) [':', '[', ']']

theorem Plain.append {s t : String} (hs : Plain s) (ht : Plain t) : Plain (s ++ t) := by
  intro c hc hMem
  rw [chars_eq, String.toList_append, List.mem_append, ← chars_eq, ← chars_eq] at hMem
  exact hMem.elim (hs c hc) (ht c hc)

theorem hostPart_of_no_colon {s : String} (h : ':' ∉ chars s) : hostPart s = s := by
  rw [hostPart, splitHostPort, if_pos h]
  rfl

theorem hostPart_plain {s : String} (h : Plain s) : hostPart s = s :=
  hostPart_of_no_colon (h ':' (by simp))

/-- A port behind a host is cut off. -/
theorem hostPart_port {s port : String} (h : Plain s) (hPort : Plain port) :
    hostPart (s ++ ":" ++ port) = s := by
  have hText : chars (s ++ ":" ++ port) = s.toList ++ ':' :: port.toList := by
    simp
  have hSign : ∀ c ∈ [':', '[', ']'], c ∉ s.toList ∧ c ∉ port.toList := by
    intro c hc
    rw [← chars_eq, ← chars_eq]
    exact ⟨h c hc, hPort c hc⟩
  obtain ⟨hColon, hColonPort⟩ := hSign ':' (by simp)
  obtain ⟨hOpen, hOpenPort⟩ := hSign '[' (by simp)
  obtain ⟨hClose, hClosePort⟩ := hSign ']' (by simp)
  have hAfter : afterColon (s.toList ++ ':' :: port.toList) = port.toList := by
    have hSplit : s.toList ++ ':' :: port.toList = (s.toList ++ [':']) ++ port.toList := by simp
    rw [hSplit]
    exact afterColon_append hColonPort _ (Or.inr ⟨s.toList, rfl⟩)
  have hFront : (s.toList ++ ':' :: port.toList).take
      ((s.toList ++ ':' :: port.toList).length - (port.toList.length + 1)) = s.toList := by
    simp
  have hHead : (s.toList ++ ':' :: port.toList).head? ≠ some '[' := by
    intro hFirst
    have hMem := List.mem_of_head? hFirst
    simp [hOpen, hOpenPort] at hMem
  rw [hostPart, splitHostPort, hText]
  simp only [hAfter, hFront]
  rw [if_neg (by simp), if_neg hHead, if_neg (by simp [hColon, hOpen, hOpenPort, hClose, hClosePort])]
  simp

end Net
