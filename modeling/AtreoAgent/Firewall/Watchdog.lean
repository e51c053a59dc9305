import AtreoAgent.Firewall.Confinement

/-! What the watchdog repairs. It looks for the jump from `INPUT` in both families and
rebuilds everything if one is missing. Damage that leaves both jumps in place is not seen. -/
namespace Firewall

open Netfilter

section Outside

variable {H : Type}

/-- The rule leads into one of the agent's chains. -/
def refersOwn (r : Rule String (Match H)) : Bool := r.target.callee.any ownChain

/-- What others do to a table: they delete, reorder and insert rules in any chain, but add no
rule that leads into the agent's chains. -/
def Disturbed (t t' : Table String (Match H)) : Prop :=
  ∀ ch, ((t'.rules ch).filter refersOwn).Subperm ((t.rules ch).filter refersOwn)

/-- Rules that lead into the agent's chains are its own jumps, eight at most in each
built-in chain. -/
structure Tame (cfg : Config) (t : Table String (Match H)) : Prop where
  input : ∀ r ∈ t.rules (.builtin .input), refersOwn r = true → r = inputJump cfg
  forward : ∀ r ∈ t.rules (.builtin .forward), refersOwn r = true → r = forwardJump cfg
  inputs : ((t.rules (.builtin .input)).filter refersOwn).length ≤ 8
  forwards : ((t.rules (.builtin .forward)).filter refersOwn).length ≤ 8
  elsewhere : ∀ ch, ch ≠ .builtin .input → ch ≠ .builtin .forward → ∀ r ∈ t.rules ch,
    refersOwn r = false

variable {cfg : Config} {grants : List PortGrant} {fam : Family} {t t' base : Table String (Match H)}

/-- Nothing leads to a chain that does not exist. -/
theorem refersOwn_of_fresh (h : ∀ c, ownChain c = true → c ∉ base.names) {ch : Chain String}
    {r : Rule String (Match H)} (hr : r ∈ base.rules ch) : refersOwn r = false := by
  rw [refersOwn]
  cases hCallee : r.target.callee with
  | none => rfl
  | some c =>
      refine Bool.eq_false_iff.mpr fun hOwn => ?_
      exact h c hOwn (base.closed ch r hr c hCallee)

theorem filter_refersOwn_of_fresh (h : ∀ c, ownChain c = true → c ∉ base.names) (ch : Chain String) :
    (base.rules ch).filter refersOwn = [] :=
  List.filter_eq_nil_iff.mpr fun r hr => by simp [refersOwn_of_fresh h hr]

/-- A table that `Apply` has built has one jump in each of the two chains. -/
theorem Built.filter_refersOwn (h : Built cfg grants fam base t) (ch : Chain String) :
    (t.rules ch).filter refersOwn =
      if ch = .builtin .input then [inputJump cfg]
      else if ch = .builtin .forward then [forwardJump cfg] else [] := by
  have hBase := filter_refersOwn_of_fresh h.fresh
  rw [h.rules]
  cases ch with
  | builtin hook =>
      cases hook with
      | input => exact (List.filter_cons_of_pos rfl).trans (congrArg _ (hBase (.builtin .input)))
      | forward => exact (List.filter_cons_of_pos rfl).trans (congrArg _ (hBase (.builtin .forward)))
      | output => exact hBase (.builtin .output)
  | user c =>
      have hNone : ∀ rs : List (Rule String (Match H)), (∀ r ∈ rs, r.target.callee = none) →
          rs.filter refersOwn = [] := by
        intro rs hCallee
        refine List.filter_eq_nil_iff.mpr fun r hr => ?_
        simp [refersOwn, hCallee r hr]
      simp only [overlay, reduceCtorEq, if_false]
      split
      · exact hNone _ fun r hr => callee_inputRules hr
      · split
        · exact hNone _ fun r hr => callee_forwardRules hr
        · exact hBase (.user c)

/-- What others leave of it is tame. -/
theorem Built.tame_of_disturbed (h : Built cfg grants fam base t) (hDisturbed : Disturbed t t') :
    Tame cfg t' := by
  have hLeft : ∀ ch, ((t'.rules ch).filter refersOwn).Subperm
      (if ch = .builtin .input then [inputJump cfg]
        else if ch = .builtin .forward then [forwardJump cfg] else []) := by
    intro ch
    rw [← h.filter_refersOwn ch]
    exact hDisturbed ch
  have hMem : ∀ {ch : Chain String} {r : Rule String (Match H)}, r ∈ t'.rules ch →
      refersOwn r = true → r ∈ (if ch = .builtin .input then [inputJump cfg]
        else if ch = .builtin .forward then [forwardJump cfg] else []) :=
    fun hr hRefers => (hLeft _).subset (List.mem_filter.mpr ⟨hr, hRefers⟩)
  refine ⟨fun r hr hRefers => ?_, fun r hr hRefers => ?_, ?_, ?_, fun ch hInput hForward r hr => ?_⟩
  · exact List.mem_singleton.mp (hMem hr hRefers)
  · exact List.mem_singleton.mp (hMem hr hRefers)
  · exact (hLeft (.builtin .input)).length_le.trans (by simp)
  · exact (hLeft (.builtin .forward)).length_le.trans (by simp)
  · refine Bool.eq_false_iff.mpr fun hRefers => ?_
    have hNone := hMem hr hRefers
    rw [if_neg hInput, if_neg hForward] at hNone
    cases hNone

end Outside

section Undisturbed

variable {H : Type} {w w' w'' : World H} {fam : Family}

/-- Only the table of the family changes, in the given way. -/
def Turns (fam : Family) (R : Table String (Match H) → Table String (Match H) → Prop)
    (w w' : World H) : Prop :=
  ∃ t, w'.tables = Function.update w.tables fam t ∧ R (w.tables fam) t

theorem Turns.trans {R S : Table String (Match H) → Table String (Match H) → Prop}
    (h : Turns fam R w w') (h' : Turns fam S w' w'') :
    Turns fam (fun t t'' => ∃ t', R t t' ∧ S t' t'') w w'' := by
  obtain ⟨t, hTables, hR⟩ := h
  obtain ⟨t', hTables', hS⟩ := h'
  have hTable : w'.tables fam = t := by rw [hTables, Function.update_self]
  rw [hTable] at hS
  exact ⟨t', by rw [hTables', hTables, Function.update_idem], t, hR, hS⟩

theorem Turns.mono {R S : Table String (Match H) → Table String (Match H) → Prop}
    (hImp : ∀ t t', R t t' → S t t') (h : Turns fam R w w') : Turns fam S w w' := by
  obtain ⟨t, hTables, hR⟩ := h
  exact ⟨t, hTables, hImp _ _ hR⟩

variable [DecidableEq H] {host : Host H} {cfg : Config}

/-- Without faults the table alone decides about a command. -/
theorem run_none (host : Host H) (w : World H) (fam : Family) (cmd : Command String (Match H)) :
    Turns fam (fun t t' => t' = (t.exec (Match.valid host fam) cmd).getD t) w
        (w.run host Faults.none fam cmd).1 ∧
      (w.run host Faults.none fam cmd).2 =
        ((w.tables fam).exec (Match.valid host fam) cmd).isSome := by
  have hAllowed : (Faults.none : Faults H).denies w.visited.length fam cmd = false := rfl
  rw [World.run, hAllowed, if_neg Bool.false_ne_true]
  cases hExec : (w.tables fam).exec (Match.valid host fam) cmd with
  | none =>
      exact ⟨⟨w.tables fam, (Function.update_eq_self fam w.tables).symm,
        (congrArg (Option.getD · (w.tables fam)) hExec).symm⟩, rfl⟩
  | some t => exact ⟨⟨t, rfl, (congrArg (Option.getD · (w.tables fam)) hExec).symm⟩, rfl⟩

/-- All copies of the rule are gone from the built-in chain, and other rules at most with
them. -/
def Drained (hook : Hook) (r : Rule String (Match H)) (t t' : Table String (Match H)) : Prop :=
  ∃ rs, t.Edit (.builtin hook) rs t' ∧ r ∉ rs ∧ rs.Sublist (t.rules (.builtin hook))

/-- A rule is drained if there are not more copies of it than attempts. -/
theorem drain_none (host : Host H) (w : World H) (fam : Family) (hook : Hook)
    (r : Rule String (Match H)) (n : Nat) :
    Turns fam (fun t t' => (t.rules (.builtin hook)).count r ≤ n → Drained hook r t t') w
      (w.drain host Faults.none fam (.delete (.builtin hook) r) n) := by
  induction n generalizing w with
  | zero =>
      refine ⟨w.tables fam, (Function.update_eq_self fam w.tables).symm, fun hCount => ?_⟩
      exact ⟨_, Table.Edit.self _ _, List.count_eq_zero.mp (Nat.le_zero.mp hCount),
        List.Sublist.refl _⟩
  | succ n ih =>
      obtain ⟨⟨t₁, hTables, hTable⟩, hOk⟩ := run_none host w fam (.delete (.builtin hook) r)
      rw [World.drain]
      generalize w.run host Faults.none fam (.delete (.builtin hook) r) = outcome at hTables hOk ⊢
      obtain ⟨w₁, ok⟩ := outcome
      dsimp only at hTables hOk
      cases hExec : (w.tables fam).exec (Match.valid host fam) (.delete (.builtin hook) r) with
      | some t₂ =>
          rw [hExec] at hOk hTable
          subst hOk hTable
          obtain ⟨_, hEdit⟩ := Table.exec_delete.mp hExec
          obtain ⟨t, hRest, hDrained⟩ := ih w₁
          refine ⟨t, ?_, fun hCount => ?_⟩
          · exact hRest.trans (by rw [hTables, Function.update_idem])
          · rw [hTables, Function.update_self] at hDrained
            have hRules : t₁.rules (.builtin hook) =
                ((w.tables fam).rules (.builtin hook)).erase r := by
              rw [hEdit.rules, Function.update_self]
            have hLess : (t₁.rules (.builtin hook)).count r ≤ n := by
              rw [hRules, List.count_erase_self]
              omega
            obtain ⟨rs, hEdit', hGone, hSub⟩ := hDrained hLess
            rw [hRules] at hSub
            exact ⟨rs, hEdit.trans hEdit', hGone, hSub.trans List.erase_sublist⟩
      | none =>
          rw [hExec] at hOk hTable
          subst hOk hTable
          refine ⟨w.tables fam, hTables, fun _ => ⟨_, Table.Edit.self _ _, ?_, List.Sublist.refl _⟩⟩
          simpa [Table.exec, Table.has] using hExec

theorem count_le_of_refersOwn {rs : List (Rule String (Match H))} {r : Rule String (Match H)}
    (hRefers : refersOwn r = true) : rs.count r ≤ (rs.filter refersOwn).length := by
  rw [← List.countP_eq_length_filter, List.count]
  refine List.countP_mono_left fun r' _ hSame => ?_
  rw [eq_of_beq hSame]
  exact hRefers

omit [DecidableEq H] in
/-- Nothing leads to the agent's chains once the jumps of a tame table are drained. -/
theorem refersOwn_of_drained {t t₁ t₂ : Table String (Match H)} (h : Tame cfg t)
    (h₁ : Drained .input (inputJump cfg) t t₁) (h₂ : Drained .forward (forwardJump cfg) t₁ t₂)
    {ch : Chain String} {r : Rule String (Match H)} (hr : r ∈ t₂.rules ch) :
    refersOwn r = false := by
  obtain ⟨rs₁, hEdit₁, hGone₁, hSub₁⟩ := h₁
  obtain ⟨rs₂, hEdit₂, hGone₂, hSub₂⟩ := h₂
  rw [hEdit₂.rules, hEdit₁.rules] at hr
  rw [hEdit₁.rules, Function.update_of_ne (by simp)] at hSub₂
  rw [← Bool.not_eq_true]
  intro hRefers
  by_cases hForward : ch = .builtin .forward
  · rw [hForward, Function.update_self] at hr
    rw [h.forward r (hSub₂.subset hr) hRefers] at hr
    exact hGone₂ hr
  · rw [Function.update_of_ne hForward] at hr
    by_cases hInput : ch = .builtin .input
    · rw [hInput, Function.update_self] at hr
      rw [h.input r (hSub₁.subset hr) hRefers] at hr
      exact hGone₁ hr
    · rw [Function.update_of_ne hInput] at hr
      rw [h.elsewhere ch hInput hForward r hr] at hRefers
      cases hRefers

/-- Teardown without faults removes the agent's chains from a tame table. -/
theorem teardownTable_clears (host : Host H) (cfg : Config) (w : World H) (fam : Family) :
    Turns fam (fun t t' => Tame cfg t → ∀ c, ownChain c = true → c ∉ t'.names) w
      (w.teardownTable host Faults.none cfg fam) := by
  unfold World.teardownTable
  dsimp only
  refine Turns.mono ?_ ((((((drain_none host w fam .input (inputJump cfg) 8).trans
    (drain_none host _ fam .forward (forwardJump cfg) 8)).trans
    (run_none host _ fam (.flush (.user inputChain))).1).trans
    (run_none host _ fam (.flush (.user forwardChain))).1).trans
    (run_none host _ fam (.deleteChain inputChain)).1).trans
    (run_none host _ fam (.deleteChain forwardChain)).1)
  rintro t t₆ ⟨t₅, ⟨t₄, ⟨t₃, ⟨t₂, ⟨t₁, h₁, h₂⟩, h₃⟩, h₄⟩, h₅⟩, h₆⟩ hTame c hOwn
  have hDrained₁ := h₁ ((count_le_of_refersOwn rfl).trans hTame.inputs)
  have hForward : t₁.rules (.builtin .forward) = t.rules (.builtin .forward) := by
    obtain ⟨rs, hEdit, _⟩ := hDrained₁
    rw [hEdit.rules, Function.update_of_ne (by simp)]
  have hDrained₂ := h₂ (by
    rw [hForward]
    exact (count_le_of_refersOwn rfl).trans hTame.forwards)
  have hEdit₃ : t₂.Edit (.user inputChain) [] t₃ := by
    rw [h₃]
    exact Table.edit_flush _ _ _
  have hEdit₄ : t₃.Edit (.user forwardChain) [] t₄ := by
    rw [h₄]
    exact Table.edit_flush _ _ _
  have hUnused : ∀ d, ownChain d = true → ∀ ch, ∀ r ∈ t₄.rules ch, r.target.callee ≠ some d := by
    intro d hd ch r hr hCallee
    have hOld : r ∈ t₂.rules ch := by
      rw [hEdit₄.rules, Function.update_apply] at hr
      split at hr
      · cases hr
      · rw [hEdit₃.rules, Function.update_apply] at hr
        split at hr
        · cases hr
        · exact hr
    have hRefers := refersOwn_of_drained hTame hDrained₁ hDrained₂ hOld
    rw [refersOwn, hCallee, Option.any_some, hd] at hRefers
    cases hRefers
  have hEmptyIn : t₄.rules (.user inputChain) = [] := by
    rw [hEdit₄.rules, Function.update_of_ne (by decide), hEdit₃.rules, Function.update_self]
  have hEmptyFwd : t₄.rules (.user forwardChain) = [] := by
    rw [hEdit₄.rules, Function.update_self]
  have hRename₅ : t₄.Rename (t₄.names.filter (· ≠ inputChain)) t₅ := by
    rw [h₅]
    exact Table.rename_deleteChain _ hEmptyIn (Table.referenced_eq_false (hUnused inputChain rfl))
  have hRename₆ : t₅.Rename (t₅.names.filter (· ≠ forwardChain)) t₆ := by
    rw [← hRename₅.rules] at hEmptyFwd hUnused
    rw [h₆]
    exact Table.rename_deleteChain _ hEmptyFwd
      (Table.referenced_eq_false (hUnused forwardChain rfl))
  rw [hRename₆.names, hRename₅.names]
  rcases (Bool.or_eq_true _ _).mp hOwn with hIn | hFwd
  · simp [of_decide_eq_true hIn]
  · simp [of_decide_eq_true hFwd]

/-- After a teardown without faults the agent's chains are gone from both families. -/
theorem teardown_clears (host : Host H) (w : World H) (hTame : ∀ fam, Tame cfg (w.tables fam))
    (fam : Family) (c : String) (hOwn : ownChain c = true) :
    c ∉ ((w.teardown host Faults.none cfg).tables fam).names := by
  obtain ⟨t₄, hTables₄, hClear₄⟩ := teardownTable_clears host cfg w .v4
  obtain ⟨t₆, hTables₆, hClear₆⟩ := teardownTable_clears host cfg
    (w.teardownTable host Faults.none cfg .v4) .v6
  rw [teardown_eq, hTables₆, hTables₄]
  rw [hTables₄] at hClear₆
  cases fam with
  | v4 => exact hClear₄ (hTame .v4) c hOwn
  | v6 => exact hClear₆ (hTame .v6) c hOwn

/-- Commands that the table allows one after the other succeed without faults. -/
theorem runAll_none {cmds : List (Command String (Match H) × String)} {t : Table String (Match H)}
    (h : (cmds.map Prod.fst).foldlM (Table.exec (Match.valid host fam)) (w.tables fam) = some t) :
    (w.runAll host Faults.none fam cmds).2 = none ∧
      (w.runAll host Faults.none fam cmds).1.tables = Function.update w.tables fam t := by
  induction cmds generalizing w with
  | nil =>
      cases h
      exact ⟨rfl, (Function.update_eq_self fam w.tables).symm⟩
  | cons cmd cmds ih =>
      obtain ⟨cmd, text⟩ := cmd
      rw [List.map_cons, List.foldlM_cons] at h
      obtain ⟨t₁, hExec, hRest⟩ := Option.bind_eq_some_iff.mp h
      obtain ⟨⟨t₂, hTables, hTable⟩, hOk⟩ := run_none host w fam cmd
      rw [hExec] at hOk hTable
      subst hTable
      rw [World.runAll]
      generalize w.run host Faults.none fam cmd = outcome at hTables hOk ⊢
      obtain ⟨w₁, ok⟩ := outcome
      dsimp only at hTables hOk
      subst hOk
      have hTable : w₁.tables fam = t₂ := by rw [hTables, Function.update_self]
      rw [← hTable] at hRest
      obtain ⟨hNone, hFinal⟩ := ih hRest
      refine ⟨hNone, hFinal.trans ?_⟩
      rw [hTables, Function.update_idem]

/-- `applyTable` succeeds without faults where the agent's chains are gone. -/
theorem applyTable_none {grants : List PortGrant} (hAccepted : Accepted host cfg grants fam)
    (hFresh : ∀ c, ownChain c = true → c ∉ (w.tables fam).names) : ∃ w' t,
      w.applyTable host Faults.none cfg grants fam = (w', none) ∧
        w'.tables = Function.update w.tables fam t := by
  obtain ⟨t', hBuild⟩ := exists_of_buildCommands hAccepted hFresh
  rw [← map_tableCommands, List.foldlM_append] at hBuild
  obtain ⟨t₁, hCommands, hLast⟩ := Option.bind_eq_some_iff.mp hBuild
  have hLast : t₁.exec (Match.valid host fam) (.insert (.builtin .forward) (forwardJump cfg)) =
      some t' := by simpa using hLast
  obtain ⟨hNone, hTables⟩ := runAll_none hCommands
  unfold World.applyTable
  generalize w.runAll host Faults.none fam (tableCommands cfg grants fam) = outcome at hNone hTables ⊢
  obtain ⟨w₁, e⟩ := outcome
  dsimp only at hNone hTables
  subst hNone
  obtain ⟨⟨t₂, hTables₂, hTable⟩, hOk⟩ :=
    run_none host w₁ fam (.insert (.builtin .forward) (forwardJump cfg))
  rw [hTables, Function.update_self, hLast] at hOk hTable
  dsimp only
  generalize w₁.run host Faults.none fam (.insert (.builtin .forward) (forwardJump cfg)) = outcome
    at hTables₂ hOk ⊢
  obtain ⟨w₂, ok⟩ := outcome
  dsimp only at hTables₂ hOk
  subst hOk
  exact ⟨w₂, t₂, rfl, by rw [hTables₂, hTables, Function.update_idem]⟩

/-- `Apply` succeeds without faults on tame tables. -/
theorem apply_none {m : Manager} (hIface : m.cfg.iface ≠ "")
    (hAccepted : ∀ fam, Accepted host m.cfg m.portGrants fam)
    (hTame : ∀ fam, Tame m.cfg (w.tables fam)) : (m.apply host Faults.none w).2.2 = none := by
  have hFresh := teardown_clears host w hTame
  have hPath : families.find? (! (Faults.none : Faults H).onPath ·) = none := rfl
  unfold Manager.apply
  rw [hPath]
  dsimp only
  rw [if_neg hIface]
  generalize w.teardown host Faults.none m.cfg = torn at hFresh ⊢
  obtain ⟨w₄, t₄, hApply₄, hTables₄⟩ := applyTable_none (hAccepted .v4) (hFresh .v4)
  have hFresh₆ : ∀ c, ownChain c = true → c ∉ (w₄.tables .v6).names := by
    rw [hTables₄]
    exact hFresh .v6
  obtain ⟨w₆, t₆, hApply₆, _⟩ := applyTable_none (hAccepted .v6) hFresh₆
  rw [families, World.applyTables, hApply₄]
  dsimp only
  rw [World.applyTables, hApply₆]
  rfl

/-- The watchdog sees whether both jumps from `INPUT` are there. -/
theorem present_none (fams : List Family) (w : World H) :
    (w.present host Faults.none cfg fams).2 = true ↔
      ∀ fam ∈ fams, inputJump cfg ∈ (w.tables fam).rules (.builtin .input) := by
  induction fams generalizing w with
  | nil => simp [World.present]
  | cons fam fams ih =>
      have hStill : Still w (w.run host Faults.none fam (.check (.builtin .input) (inputJump cfg))).1 :=
        still_run (Or.inr fun t ht => (Table.exec_check.mp ht).2.symm)
      obtain ⟨_, hOk⟩ := run_none host w fam (.check (.builtin .input) (inputJump cfg))
      rw [World.present, List.forall_mem_cons]
      generalize w.run host Faults.none fam (.check (.builtin .input) (inputJump cfg)) = outcome
        at hStill hOk ⊢
      obtain ⟨w₁, ok⟩ := outcome
      dsimp only at hOk
      have hFound : ok = true ↔ inputJump cfg ∈ (w.tables fam).rules (.builtin .input) := by
        rw [hOk]
        simp [Table.exec]
      cases ok with
      | true =>
          rw [← hFound, hStill.tables.symm]
          simpa using ih w₁
      | false =>
          rw [← hFound]
          simp

end Undisturbed

section Watchdog

variable {H : Type} [DecidableEq H] {host : Host H}

/-- Packets on the WireGuard interface have the verdicts of the policy, in both families. -/
def Confines (host : Host H) (cfg : Config) (grants : List PortGrant) (tables : Tables H) : Prop :=
  ∀ fam p, p.iface = cfg.iface → ∀ v,
    ((tables fam).Gives (Match.holds host fam) .input p v ↔
      v = verdict (permitted host fam p cfg grants)) ∧
    ((tables fam).Gives (Match.holds host fam) .forward p v ↔
      v = verdict (granted host fam p grants))

theorem confines_of_apply {faults : Faults H} {m : Manager} {w : World H}
    (h : (m.apply host faults w).2.2 = none) :
    Confines host m.cfg m.portGrants (m.apply host faults w).2.1.tables := by
  intro fam p hp v
  obtain ⟨_, hTables⟩ := apply_eq_none h
  have hInstalled : Installed m.cfg m.portGrants fam ((m.apply host faults w).2.1.tables fam) :=
    ⟨_, (hTables fam).2⟩
  exact ⟨hInstalled.gives_input hp v, hInstalled.gives_forward hp v⟩

theorem iface_of_apply {faults : Faults H} {m : Manager} {w : World H}
    (h : (m.apply host faults w).2.2 = none) : m.cfg.iface ≠ "" := by
  intro hEmpty
  unfold Manager.apply at h
  split at h
  · cases h
  · rw [if_pos hEmpty] at h
    cases h

/-- After any outside change to the tables of a successful `Apply`, a tick of the watchdog
without faults leaves the verdicts of the policy on the WireGuard interface exactly if one
of the jumps from `INPUT` is missing, or the change did no harm. -/
theorem watchdog_restores_iff (host : Host H) (faults : Faults H) (m : Manager) (w : World H)
    (hApplied : (m.apply host faults w).2.2 = none) (tables : Tables H)
    (hOutside : ∀ fam, Disturbed ((m.apply host faults w).2.1.tables fam) (tables fam)) :
    Confines host m.cfg m.portGrants
        ((m.apply host faults w).1.tick host Faults.none ⟨tables, []⟩).2.1.tables ↔
      (∃ fam, inputJump m.cfg ∉ (tables fam).rules (.builtin .input)) ∨
        Confines host m.cfg m.portGrants tables := by
  obtain ⟨hManager, hTables⟩ := apply_eq_none hApplied
  have hTame : ∀ fam, Tame m.cfg (tables fam) := fun fam =>
    (hTables fam).2.tame_of_disturbed (hOutside fam)
  have hPresent : (World.present host Faults.none m.cfg ⟨tables, []⟩ families).2 = true ↔
      ∀ fam ∈ families, inputJump m.cfg ∈ (tables fam).rules (.builtin .input) :=
    present_none families ⟨tables, []⟩
  have hStill : Still ⟨tables, []⟩ (World.present host Faults.none m.cfg ⟨tables, []⟩ families).1 :=
    still_present families ⟨tables, []⟩
  rw [hManager, Manager.tick, if_pos rfl]
  generalize World.present host Faults.none m.cfg ⟨tables, []⟩ families = outcome
    at hPresent hStill ⊢
  obtain ⟨w₁, found⟩ := outcome
  cases found with
  | true =>
      have hFound : ∀ fam, inputJump m.cfg ∈ (tables fam).rules (.builtin .input) :=
        fun fam => hPresent.mp rfl fam (by cases fam <;> decide)
      have hSame : w₁.tables = tables := hStill.tables
      dsimp only
      rw [hSame]
      refine ⟨Or.inr, fun h => ?_⟩
      rcases h with ⟨fam, hMissing⟩ | hConfines
      · exact absurd (hFound fam) hMissing
      · exact hConfines
  | false =>
      have hMissing : ∃ fam, inputJump m.cfg ∉ (tables fam).rules (.builtin .input) := by
        by_contra hNone
        refine Bool.false_ne_true (hPresent.mpr fun fam _ => ?_)
        by_contra hGone
        exact hNone ⟨fam, hGone⟩
      have hAgain : (Manager.apply host Faults.none { m with enabled := true } w₁).2.2 = none := by
        have hIface : m.cfg.iface ≠ "" := iface_of_apply hApplied
        refine apply_none hIface (fun fam => (hTables fam).1) fun fam => ?_
        rw [hStill.tables]
        exact hTame fam
      exact ⟨fun _ => Or.inl hMissing, fun _ => confines_of_apply hAgain⟩

/-- The tables of the sample system after others have run a command in the first family. -/
def sampleDamage (cmd : Command String (Match Empty)) : Tables Empty :=
  Function.update sampleSystem.tables .v4
    (((sampleSystem.tables .v4).exec (Match.valid sampleHost .v4) cmd).getD
      (sampleSystem.tables .v4))

theorem disturbed_flush (t : Table String (Match H)) (valid : Match H → Bool) (ch : Chain String) :
    Disturbed t ((t.exec valid (.flush ch)).getD t) := by
  intro other
  rw [(Table.edit_flush valid t ch).rules, Function.update_apply]
  split
  · exact List.nil_subperm
  · exact List.Subperm.refl _

theorem disturbed_sampleDamage (ch : Chain String) (fam : Family) :
    Disturbed (sampleSystem.tables fam) (sampleDamage (.flush ch) fam) := by
  cases fam with
  | v4 =>
      rw [sampleDamage, Function.update_self]
      exact disturbed_flush _ _ _
  | v6 => exact fun _ => List.Subperm.refl _

theorem flushed_input_is_restored :
    sampleSystem.result = none ∧
      Confines sampleHost sampleConfig []
        (sampleSystem.manager.tick sampleHost Faults.none
          ⟨sampleDamage (.flush (.builtin .input)), []⟩).2.1.tables := by
  have hApplied : ((sampleManager []).apply sampleHost Faults.none ⟨fun _ => openTable, []⟩).2.2 =
      none := by decide +kernel
  have hMissing : inputJump sampleConfig ∉
      (sampleDamage (.flush (.builtin .input)) .v4).rules (.builtin .input) := by decide +kernel
  exact ⟨hApplied, (watchdog_restores_iff sampleHost Faults.none (sampleManager [])
    ⟨fun _ => openTable, []⟩ hApplied (sampleDamage (.flush (.builtin .input)))
    (disturbed_sampleDamage _)).mpr (Or.inl ⟨.v4, hMissing⟩)⟩

/-- Others flush `FORWARD`: the watchdog sees nothing, and what no grant covers is let
through. -/
theorem flushed_forward_stays_open :
    sampleSystem.result = none ∧
      Disturbed (sampleSystem.tables .v4) (sampleDamage (.flush (.builtin .forward)) .v4) ∧
      granted sampleHost .v4 (samplePacket 23) [] = false ∧
      ((sampleSystem.manager.tick sampleHost Faults.none
        ⟨sampleDamage (.flush (.builtin .forward)), []⟩).2.1.tables .v4).Gives
          (Match.holds sampleHost .v4) .forward (samplePacket 23) .accept :=
  ⟨by decide +kernel, disturbed_sampleDamage _ .v4, by decide +kernel, 1, by decide +kernel⟩

end Watchdog

end Firewall
