import Mathlib.Logic.Function.Basic

/-! Tables of the packet filter of the kernel. A table has built-in chains, chains with a
name, and rules that can jump to the latter. No rule jumps to a chain that does not
exist. A command changes the table or is refused and leaves it as it is. -/
namespace Netfilter

/-- The built-in chains of the filter table. -/
inductive Hook where
  | input
  | forward
  | output
  deriving DecidableEq, Repr

inductive Verdict where
  | accept
  | drop
  deriving DecidableEq, Repr

/-- What a rule does with a packet that meets its condition. `pass` stands for the targets
after which the next rule is tried. -/
inductive Target (N : Type) where
  | accept
  | drop
  | ret
  | pass
  | jump (c : N)
  | goto (c : N)
  deriving DecidableEq, Repr

/-- The chain that the target leads to. -/
def Target.callee {N : Type} : Target N → Option N
  | .jump c => some c
  | .goto c => some c
  | _ => none

structure Rule (N M : Type) where
  cond : M
  target : Target N
  deriving DecidableEq, Repr

inductive Chain (N : Type) where
  | builtin (hook : Hook)
  | user (name : N)
  deriving DecidableEq, Repr

/-- A table. A chain that does not exist has no rules, and a rule leads only to chains
that exist. -/
@[ext] structure Table (N M : Type) where
  rules : Chain N → List (Rule N M)
  names : List N
  policy : Hook → Verdict
  absent : ∀ c, c ∉ names → rules (.user c) = []
  closed : ∀ ch, ∀ r ∈ rules ch, ∀ c, r.target.callee = some c → c ∈ names

inductive Command (N M : Type) where
  | newChain (c : N)
  | append (ch : Chain N) (r : Rule N M)
  /-- Insert at the top. -/
  | insert (ch : Chain N) (r : Rule N M)
  /-- Delete the first rule that is equal. -/
  | delete (ch : Chain N) (r : Rule N M)
  | check (ch : Chain N) (r : Rule N M)
  | flush (ch : Chain N)
  | deleteChain (c : N)
  deriving DecidableEq, Repr

namespace Table

variable {N M : Type} [DecidableEq N]

/-- The chain exists. -/
def has (t : Table N M) : Chain N → Bool
  | .builtin _ => true
  | .user c => c ∈ t.names

/-- The chain that the rule leads to exists. -/
def resolves (t : Table N M) (r : Rule N M) : Bool := r.target.callee.all (· ∈ t.names)

def refers (c : N) (r : Rule N M) : Bool := r.target.callee = some c

/-- A rule of some chain leads to the chain. -/
def referenced (t : Table N M) (c : N) : Bool :=
  ([Hook.input, .forward, .output].map Chain.builtin ++ t.names.map Chain.user).any
    fun ch => (t.rules ch).any (refers c)

variable {t : Table N M} {ch : Chain N} {r : Rule N M}

theorem resolves_of_mem (h : r ∈ t.rules ch) : t.resolves r = true := by
  unfold resolves
  cases hCallee : r.target.callee with
  | none => rfl
  | some c => simpa using t.closed ch r h c hCallee

theorem resolves_append {rs : List (Rule N M)} (h : ∀ r ∈ rs, t.resolves r = true) :
    ∀ r ∈ t.rules ch ++ rs, t.resolves r = true := by
  intro r hr
  rcases List.mem_append.mp hr with hOld | hNew
  · exact resolves_of_mem hOld
  · exact h r hNew

theorem resolves_cons (h : t.resolves r = true) : ∀ r' ∈ r :: t.rules ch, t.resolves r' = true := by
  intro r' hr'
  rcases List.mem_cons.mp hr' with hNew | hOld
  · rw [hNew]
    exact h
  · exact resolves_of_mem hOld

/-- The chain gets other rules. -/
def setRules (t : Table N M) (ch : Chain N) (rs : List (Rule N M)) (hHas : t.has ch = true)
    (hResolves : ∀ r ∈ rs, t.resolves r = true) : Table N M where
  rules := Function.update t.rules ch rs
  names := t.names
  policy := t.policy
  absent := by
    intro c hc
    rw [Function.update_of_ne]
    · exact t.absent c hc
    · rintro rfl
      exact hc (by simpa [has] using hHas)
  closed := by
    intro ch' r hr c hc
    rw [Function.update_apply] at hr
    split at hr
    · simpa [resolves, hc] using hResolves r hr
    · exact t.closed ch' r hr c hc

/-- The chain exists, without rules. -/
def addName (t : Table N M) (c : N) : Table N M where
  rules := t.rules
  names := c :: t.names
  policy := t.policy
  absent := fun d hd => t.absent d fun hMem => hd (List.mem_cons_of_mem c hMem)
  closed := fun ch r hr d hd => List.mem_cons_of_mem c (t.closed ch r hr d hd)

theorem not_refers_of_not_referenced {c : N} (h : t.referenced c = false) (hr : r ∈ t.rules ch) :
    r.target.callee ≠ some c := by
  have hListed : ch ∈ [Hook.input, .forward, .output].map Chain.builtin ++
      t.names.map Chain.user := by
    cases ch with
    | builtin hook => cases hook <;> simp
    | user d =>
        have hName : d ∈ t.names := by
          by_contra hAbsent
          rw [t.absent d hAbsent] at hr
          cases hr
        simpa using hName
  intro hCallee
  have hNone := List.any_eq_false.mp h ch hListed
  exact hNone (List.any_eq_true.mpr ⟨r, hr, by simpa [refers] using hCallee⟩)

theorem referenced_eq_false {c : N} (h : ∀ ch, ∀ r ∈ t.rules ch, r.target.callee ≠ some c) :
    t.referenced c = false := by
  refine List.any_eq_false.mpr fun ch _ hRefers => ?_
  obtain ⟨r, hr, hCallee⟩ := List.any_eq_true.mp hRefers
  exact h ch r hr (by simpa [refers] using hCallee)

/-- The chain is gone. It was empty and nothing led to it. -/
def removeName (t : Table N M) (c : N) (hEmpty : t.rules (.user c) = [])
    (hUnused : t.referenced c = false) : Table N M where
  rules := t.rules
  names := t.names.filter (· ≠ c)
  policy := t.policy
  absent := by
    intro d hd
    by_cases hName : d = c
    · rw [hName]
      exact hEmpty
    · exact t.absent d fun hMem => hd (List.mem_filter.mpr ⟨hMem, by simpa using hName⟩)
  closed := by
    intro ch r hr d hd
    refine List.mem_filter.mpr ⟨t.closed ch r hr d hd, ?_⟩
    have hNe : d ≠ c := by
      rintro rfl
      exact not_refers_of_not_referenced hUnused hr hd
    simpa using hNe

/-- The second table has other rules in one chain. -/
structure Edit (t : Table N M) (ch : Chain N) (rs : List (Rule N M)) (t' : Table N M) : Prop where
  rules : t'.rules = Function.update t.rules ch rs
  names : t'.names = t.names
  policy : t'.policy = t.policy

/-- The second table has other chains, with the same rules. -/
structure Rename (t : Table N M) (names : List N) (t' : Table N M) : Prop where
  rules : t'.rules = t.rules
  names : t'.names = names
  policy : t'.policy = t.policy

omit [DecidableEq N] in
theorem exists_rename_cons (t : Table N M) (c : N) : ∃ t', t.Rename (c :: t.names) t' :=
  ⟨t.addName c, rfl, rfl, rfl⟩

theorem setRules_eq_iff {t' : Table N M} {rs : List (Rule N M)} {hHas : t.has ch = true}
    {hResolves : ∀ r ∈ rs, t.resolves r = true} :
    t.setRules ch rs hHas hResolves = t' ↔ t.Edit ch rs t' := by
  constructor
  · rintro rfl
    exact ⟨rfl, rfl, rfl⟩
  · intro h
    exact Table.ext h.rules.symm h.names.symm h.policy.symm

section Edits

variable {t t' : Table N M} {ch : Chain N}

variable {rs : List (Rule N M)}

theorem exists_edit_append (hHas : t.has ch = true) (hResolves : ∀ r ∈ rs, t.resolves r = true) :
    ∃ t', t.Edit ch (t.rules ch ++ rs) t' :=
  ⟨t.setRules ch (t.rules ch ++ rs) hHas (resolves_append hResolves), setRules_eq_iff.mp rfl⟩

theorem exists_edit_cons {r : Rule N M} (hHas : t.has ch = true) (hResolves : t.resolves r = true) :
    ∃ t', t.Edit ch (r :: t.rules ch) t' :=
  ⟨t.setRules ch (r :: t.rules ch) hHas (resolves_cons hResolves), setRules_eq_iff.mp rfl⟩

theorem Edit.self (t : Table N M) (ch : Chain N) : t.Edit ch (t.rules ch) t :=
  ⟨(Function.update_eq_self ch t.rules).symm, rfl, rfl⟩

theorem Edit.trans {t'' : Table N M} {rs' : List (Rule N M)} (h : t.Edit ch rs t')
    (h' : t'.Edit ch rs' t'') : t.Edit ch rs' t'' where
  rules := by rw [h'.rules, h.rules, Function.update_idem]
  names := h'.names.trans h.names
  policy := h'.policy.trans h.policy

theorem Edit.has (h : t.Edit ch rs t') (ch' : Chain N) : t'.has ch' = t.has ch' := by
  cases ch' with
  | builtin hook => rfl
  | user d => rw [Table.has, Table.has, h.names]

theorem Edit.resolves (h : t.Edit ch rs t') (r : Rule N M) : t'.resolves r = t.resolves r := by
  rw [Table.resolves, Table.resolves, h.names]

end Edits

variable [DecidableEq M]

/-- A command, or `none` if it is refused. `valid` tells which conditions the command line
accepts. -/
def exec (valid : M → Bool) (t : Table N M) : Command N M → Option (Table N M)
  | .newChain c => if c ∈ t.names then none else some (t.addName c)
  | .append ch r =>
      if h : t.has ch = true ∧ t.resolves r = true ∧ valid r.cond = true then
        some (t.setRules ch (t.rules ch ++ [r]) h.1 (resolves_append (by simpa using h.2.1)))
      else none
  | .insert ch r =>
      if h : t.has ch = true ∧ t.resolves r = true ∧ valid r.cond = true then
        some (t.setRules ch (r :: t.rules ch) h.1 (resolves_cons h.2.1))
      else none
  | .delete ch r =>
      if h : t.has ch = true ∧ r ∈ t.rules ch then
        some (t.setRules ch ((t.rules ch).erase r) h.1
          fun _ hr' => resolves_of_mem (List.mem_of_mem_erase hr'))
      else none
  | .check ch r => if r ∈ t.rules ch then some t else none
  | .flush ch =>
      if h : t.has ch = true then some (t.setRules ch [] h (fun _ hr => by cases hr)) else none
  | .deleteChain c =>
      if h : c ∈ t.names ∧ t.rules (.user c) = [] ∧ t.referenced c = false then
        some (t.removeName c h.2.1 h.2.2)
      else none

section Specs

variable {valid : M → Bool} {t t' : Table N M} {c : N} {ch : Chain N} {r : Rule N M}

theorem exec_newChain :
    t.exec valid (.newChain c) = some t' ↔ c ∉ t.names ∧ t.Rename (c :: t.names) t' := by
  rw [exec, Option.ite_none_left_eq_some, Option.some_inj]
  refine and_congr Iff.rfl ⟨?_, fun h => Table.ext h.rules.symm h.names.symm h.policy.symm⟩
  rintro rfl
  exact ⟨rfl, rfl, rfl⟩

theorem exec_append : t.exec valid (.append ch r) = some t' ↔
    (t.has ch = true ∧ t.resolves r = true ∧ valid r.cond = true) ∧
      t.Edit ch (t.rules ch ++ [r]) t' := by
  simp only [exec, Option.dite_none_right_eq_some, Option.some_inj, setRules_eq_iff, exists_prop]

theorem exec_insert : t.exec valid (.insert ch r) = some t' ↔
    (t.has ch = true ∧ t.resolves r = true ∧ valid r.cond = true) ∧
      t.Edit ch (r :: t.rules ch) t' := by
  simp only [exec, Option.dite_none_right_eq_some, Option.some_inj, setRules_eq_iff, exists_prop]

theorem exec_delete : t.exec valid (.delete ch r) = some t' ↔
    (t.has ch = true ∧ r ∈ t.rules ch) ∧ t.Edit ch ((t.rules ch).erase r) t' := by
  simp only [exec, Option.dite_none_right_eq_some, Option.some_inj, setRules_eq_iff, exists_prop]

theorem exec_check :
    t.exec valid (.check ch r) = some t' ↔ r ∈ t.rules ch ∧ t = t' := by
  simp only [exec, Option.ite_none_right_eq_some, Option.some_inj]

theorem exec_flush : t.exec valid (.flush ch) = some t' ↔ t.has ch = true ∧ t.Edit ch [] t' := by
  simp only [exec, Option.dite_none_right_eq_some, Option.some_inj, setRules_eq_iff, exists_prop]

theorem exec_deleteChain : t.exec valid (.deleteChain c) = some t' ↔
    (c ∈ t.names ∧ t.rules (.user c) = [] ∧ t.referenced c = false) ∧
      t.Rename (t.names.filter (· ≠ c)) t' := by
  simp only [exec, Option.dite_none_right_eq_some, Option.some_inj]
  constructor
  · rintro ⟨hEmpty, rfl⟩
    exact ⟨hEmpty, rfl, rfl, rfl⟩
  · rintro ⟨hEmpty, h⟩
    exact ⟨hEmpty, Table.ext h.rules.symm h.names.symm h.policy.symm⟩

/-- After an attempt to flush a chain it has no rules. -/
theorem edit_flush (valid : M → Bool) (t : Table N M) (ch : Chain N) :
    t.Edit ch [] ((t.exec valid (.flush ch)).getD t) := by
  cases hExec : t.exec valid (.flush ch) with
  | some t' => exact (exec_flush.mp hExec).2
  | none =>
      have hHas : t.has ch = false := by
        simpa [exec] using hExec
      cases ch with
      | builtin hook => cases hHas
      | user c =>
          have hNil : t.rules (.user c) = [] := t.absent c (by simpa [has] using hHas)
          rw [← hNil]
          exact Edit.self t (.user c)

/-- After an attempt to delete an empty chain that nothing leads to, it is gone. -/
theorem rename_deleteChain (valid : M → Bool) (hEmpty : t.rules (.user c) = [])
    (hUnused : t.referenced c = false) :
    t.Rename (t.names.filter (· ≠ c)) ((t.exec valid (.deleteChain c)).getD t) := by
  cases hExec : t.exec valid (.deleteChain c) with
  | some t' => exact (exec_deleteChain.mp hExec).2
  | none =>
      have hAbsent : c ∉ t.names := by
        simpa [exec, hEmpty, hUnused] using hExec
      refine ⟨rfl, (List.filter_eq_self.mpr fun d hd => ?_).symm, rfl⟩
      have hNe : d ≠ c := by
        rintro rfl
        exact hAbsent hd
      simpa using hNe

/-- Rules that are appended one after the other. -/
theorem exec_appends (hHas : t.has ch = true) (rs : List (Rule N M)) :
    (rs.map (Command.append ch)).foldlM (exec valid) t = some t' ↔
      (∀ r ∈ rs, t.resolves r = true ∧ valid r.cond = true) ∧ t.Edit ch (t.rules ch ++ rs) t' := by
  induction rs generalizing t with
  | nil =>
      simp only [List.map_nil, List.foldlM_nil, List.append_nil, List.not_mem_nil, false_imp_iff,
        implies_true, true_and]
      constructor
      · intro h
        cases h
        exact Edit.self _ ch
      · intro h
        exact congrArg some (Table.ext (by rw [h.rules, Function.update_eq_self]) h.names.symm
          h.policy.symm)
  | cons r rs ih =>
      rw [List.map_cons, List.foldlM_cons, Option.bind_eq_bind, Option.bind_eq_some_iff]
      simp only [exec_append, List.forall_mem_cons]
      constructor
      · rintro ⟨t₁, ⟨⟨_, hResolves, hValid⟩, hEdit⟩, hRest⟩
        obtain ⟨hRules, hEdits⟩ := (ih ((hEdit.has ch).trans hHas)).mp hRest
        refine ⟨⟨⟨hResolves, hValid⟩, fun r' hr' => ?_⟩, hEdit.trans ?_⟩
        · rw [← hEdit.resolves]
          exact hRules r' hr'
        · rw [hEdit.rules, Function.update_self, List.append_assoc] at hEdits
          exact hEdits
      · rintro ⟨⟨⟨hResolves, hValid⟩, hRules⟩, hEdits⟩
        have hOne : ∀ r' ∈ [r], t.resolves r' = true := by simpa using hResolves
        obtain ⟨t₁, hEdit⟩ := exists_edit_append hHas hOne
        refine ⟨t₁, ⟨⟨hHas, hResolves, hValid⟩, hEdit⟩, (ih ((hEdit.has ch).trans hHas)).mpr ⟨?_, ?_⟩⟩
        · intro r' hr'
          rw [hEdit.resolves]
          exact hRules r' hr'
        · refine ⟨?_, hEdits.names.trans hEdit.names.symm, hEdits.policy.trans hEdit.policy.symm⟩
          rw [hEdits.rules, hEdit.rules, Function.update_idem, Function.update_self,
            List.append_assoc]
          rfl

end Specs

end Table

end Netfilter
