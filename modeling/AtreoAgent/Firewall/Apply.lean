import AtreoAgent.Firewall.Manager

/-! What a successful `Apply` leaves in the tables. Teardown takes out only jumps on the
WireGuard interface and the agent's own chains; a chain can be created only if it is gone,
and then nothing leads to it any more. So the new rules lie over those of the host. -/
namespace Firewall

open Netfilter

section Commands

variable {H : Type} [DecidableEq H] {host : Host H} {faults : Faults H} {w : World H} {fam : Family}

theorem run_cases (host : Host H) (faults : Faults H) (w : World H) (fam : Family)
    (cmd : Command String (Match H)) :
    (∃ t, (w.tables fam).exec (Match.valid host fam) cmd = some t ∧
      w.run host faults fam cmd = ({ tables := Function.update w.tables fam t
                                     visited := Function.update w.tables fam t :: w.visited }, true)) ∨
    w.run host faults fam cmd = ({ w with visited := w.tables :: w.visited }, false) := by
  unfold World.run
  split
  next => exact Or.inr rfl
  next t ht =>
    split at ht
    · cases ht
    · exact Or.inl ⟨t, ht, rfl⟩

/-- Commands that all succeed are carried out one after the other. -/
theorem runAll_eq_none {cmds : List (Command String (Match H) × String)}
    (h : (w.runAll host faults fam cmds).2 = none) :
    ∃ t, (cmds.map Prod.fst).foldlM (Table.exec (Match.valid host fam)) (w.tables fam) = some t ∧
      (w.runAll host faults fam cmds).1.tables = Function.update w.tables fam t := by
  induction cmds generalizing w with
  | nil => exact ⟨w.tables fam, rfl, (Function.update_eq_self fam w.tables).symm⟩
  | cons cmd cmds ih =>
      obtain ⟨cmd, text⟩ := cmd
      rcases run_cases host faults w fam cmd with ⟨t, hExec, hRun⟩ | hRun
      · rw [World.runAll, hRun] at h ⊢
        obtain ⟨t', hRest, hTables⟩ := ih h
        refine ⟨t', ?_, ?_⟩
        · rw [List.map_cons, List.foldlM_cons, hExec]
          simpa using hRest
        · rw [hTables, Function.update_idem]
      · rw [World.runAll, hRun] at h
        cases h

/-- What a command keeps, a run of it keeps in every family. -/
theorem run_preserves {R : Table String (Match H) → Table String (Match H) → Prop}
    (hRefl : ∀ t, R t t) {cmd : Command String (Match H)}
    (hExec : ∀ t t', t.exec (Match.valid host fam) cmd = some t' → R t t') (other : Family) :
    R (w.tables other) ((w.run host faults fam cmd).1.tables other) := by
  rcases run_cases host faults w fam cmd with ⟨t, ht, hRun⟩ | hRun
  · rw [hRun]
    dsimp only
    by_cases hFam : other = fam
    · subst hFam
      rw [Function.update_self]
      exact hExec _ _ ht
    · rw [Function.update_of_ne hFam]
      exact hRefl _
  · rw [hRun]
    exact hRefl _

theorem drain_preserves {R : Table String (Match H) → Table String (Match H) → Prop}
    (hRefl : ∀ t, R t t) (hTrans : ∀ t t' t'', R t t' → R t' t'' → R t t'')
    {cmd : Command String (Match H)}
    (hExec : ∀ t t', t.exec (Match.valid host fam) cmd = some t' → R t t') (n : Nat)
    (other : Family) :
    R (w.tables other) ((w.drain host faults fam cmd n).tables other) := by
  induction n generalizing w with
  | zero => exact hRefl _
  | succ n ih =>
      have hFirst : R (w.tables other) ((w.run host faults fam cmd).1.tables other) :=
        run_preserves hRefl hExec other
      rw [World.drain]
      generalize w.run host faults fam cmd = outcome at hFirst ⊢
      obtain ⟨w', ok⟩ := outcome
      cases ok with
      | true => exact hTrans _ _ _ hFirst ih
      | false => exact hFirst

end Commands

section Teardown

variable {H : Type} {host : Host H} {faults : Faults H} {cfg : Config} {fam : Family}
  {t t' t'' : Table String (Match H)}

/-- The second table differs from the first at most in the agent's own chains and in what
the built-in chains do with packets on the WireGuard interface. -/
structure Spares (host : Host H) (cfg : Config) (fam : Family) (t t' : Table String (Match H)) :
    Prop where
  policy : t'.policy = t.policy
  hooks : ∀ hook sub p, p.iface ≠ cfg.iface →
    walk (Match.holds host fam) sub p (t'.rules (.builtin hook)) =
      walk (Match.holds host fam) sub p (t.rules (.builtin hook))
  chains : ∀ c, ownChain c = false → t'.rules (.user c) = t.rules (.user c)

theorem Spares.refl (t : Table String (Match H)) : Spares host cfg fam t t :=
  ⟨rfl, fun _ _ _ _ => rfl, fun _ _ => rfl⟩

theorem Spares.trans (h : Spares host cfg fam t t') (h' : Spares host cfg fam t' t'') :
    Spares host cfg fam t t'' where
  policy := h'.policy.trans h.policy
  hooks hook sub p hp := (h'.hooks hook sub p hp).trans (h.hooks hook sub p hp)
  chains c hc := (h'.chains c hc).trans (h.chains c hc)

theorem jumpRule_not_holds {chain : String} {p : Packet} (h : p.iface ≠ cfg.iface) :
    (jumpRule (H := H) cfg chain).cond.holds host fam p = false :=
  Bool.eq_false_iff.mpr fun hHolds => h (jumpRule_holds.mp hHolds)

variable [DecidableEq H]

variable {valid : Match H → Bool}

theorem spares_delete {hook : Hook} {chain : String}
    (h : t.exec valid (.delete (.builtin hook) (jumpRule cfg chain)) = some t') :
    Spares host cfg fam t t' := by
  obtain ⟨_, hEdit⟩ := Table.exec_delete.mp h
  refine ⟨hEdit.policy, fun other sub p hp => ?_, fun c _ => ?_⟩
  · rw [hEdit.rules]
    by_cases hHook : other = hook
    · subst hHook
      rw [Function.update_self]
      exact walk_erase (jumpRule_not_holds hp)
    · rw [Function.update_of_ne]
      simpa using hHook
  · rw [hEdit.rules, Function.update_of_ne]
    simp

theorem spares_flush {c : String} (hOwn : ownChain c = true)
    (h : t.exec valid (.flush (.user c)) = some t') : Spares host cfg fam t t' := by
  obtain ⟨_, hEdit⟩ := Table.exec_flush.mp h
  refine ⟨hEdit.policy, fun other sub p _ => ?_, fun d hd => ?_⟩
  · rw [hEdit.rules, Function.update_of_ne]
    simp
  · rw [hEdit.rules, Function.update_of_ne]
    rintro ⟨⟩
    rw [hOwn] at hd
    cases hd

theorem spares_deleteChain {c : String} (h : t.exec valid (.deleteChain c) = some t') :
    Spares host cfg fam t t' := by
  obtain ⟨_, hRename⟩ := Table.exec_deleteChain.mp h
  exact ⟨hRename.policy, fun _ _ _ _ => by rw [hRename.rules], fun _ _ => by rw [hRename.rules]⟩

/-- Teardown spares what is not the agent's, whichever of its commands fail. -/
theorem spares_teardownTable (w : World H) (fam other : Family) :
    Spares host cfg other (w.tables other)
      ((w.teardownTable host faults cfg fam).tables other) := by
  unfold World.teardownTable
  dsimp only
  have hDrain : ∀ (w : World H) hook chain, Spares host cfg other (w.tables other)
      ((w.drain host faults fam (.delete (.builtin hook) (jumpRule cfg chain)) 8).tables other) :=
    fun w hook chain => drain_preserves Spares.refl (fun _ _ _ => Spares.trans)
      (fun _ _ hExec => spares_delete hExec) 8 other
  have hFlush : ∀ (w : World H) c, ownChain c = true → Spares host cfg other (w.tables other)
      ((w.run host faults fam (.flush (.user c))).1.tables other) :=
    fun w c hOwn => run_preserves Spares.refl (fun _ _ hExec => spares_flush hOwn hExec) other
  have hDelete : ∀ (w : World H) c, Spares host cfg other (w.tables other)
      ((w.run host faults fam (.deleteChain c)).1.tables other) :=
    fun w c => run_preserves Spares.refl (fun _ _ hExec => spares_deleteChain hExec) other
  refine (hDrain _ _ _).trans ((hDrain _ _ _).trans ((hFlush _ _ rfl).trans ((hFlush _ _ rfl).trans
    ((hDelete _ _).trans (hDelete _ _)))))

theorem teardown_eq (host : Host H) (faults : Faults H) (cfg : Config) (w : World H) :
    w.teardown host faults cfg =
      (w.teardownTable host faults cfg .v4).teardownTable host faults cfg .v6 := rfl

theorem spares_teardown (w : World H) (fam : Family) :
    Spares host cfg fam (w.tables fam) ((w.teardown host faults cfg).tables fam) := by
  rw [teardown_eq]
  exact (spares_teardownTable w .v4 fam).trans (spares_teardownTable _ .v6 fam)

end Teardown

section Build

variable {H : Type}

/-- The rules of the agent over those of the host. -/
def overlay (cfg : Config) (grants : List PortGrant) (fam : Family)
    (rules : Chain String → List (Rule String (Match H))) :
    Chain String → List (Rule String (Match H))
  | .builtin .input => inputJump cfg :: rules (.builtin .input)
  | .builtin .forward => forwardJump cfg :: rules (.builtin .forward)
  | .builtin .output => rules (.builtin .output)
  | .user c =>
      if c = inputChain then inputRules cfg grants fam
      else if c = forwardChain then forwardRules grants fam
      else rules (.user c)

/-- The table is the one that `Apply` builds over a table without the agent's chains. -/
structure Built (cfg : Config) (grants : List PortGrant) (fam : Family)
    (base t : Table String (Match H)) : Prop where
  fresh : ∀ c, ownChain c = true → c ∉ base.names
  rules : t.rules = overlay cfg grants fam base.rules
  policy : t.policy = base.policy

/-- The rules of `Apply` for the grants are installed. -/
def Installed (cfg : Config) (grants : List PortGrant) (fam : Family)
    (t : Table String (Match H)) : Prop := ∃ base, Built cfg grants fam base t

section Verdicts

variable {host : Host H} {cfg : Config} {grants : List PortGrant} {fam : Family} {p : Packet}
  {base t : Table String (Match H)}

/-- Packets on the WireGuard interface get the verdict of the policy. -/
theorem Installed.gives_input (h : Installed cfg grants fam t) (hp : p.iface = cfg.iface)
    (v : Verdict) : t.Gives (Match.holds host fam) .input p v ↔
      v = verdict (permitted host fam p cfg grants) := by
  obtain ⟨base, hBuilt⟩ := h
  have hTop : t.rules (.builtin .input) =
      ⟨(jumpRule cfg inputChain).cond, .jump inputChain⟩ :: base.rules (.builtin .input) := by
    rw [hBuilt.rules]
    rfl
  refine Table.gives_of_jump hTop (jumpRule_holds.mpr hp) (fun sub => ?_) v
  rw [hBuilt.rules]
  exact walk_inputRules cfg grants

theorem Installed.gives_forward (h : Installed cfg grants fam t) (hp : p.iface = cfg.iface)
    (v : Verdict) : t.Gives (Match.holds host fam) .forward p v ↔
      v = verdict (granted host fam p grants) := by
  obtain ⟨base, hBuilt⟩ := h
  have hTop : t.rules (.builtin .forward) =
      ⟨(jumpRule cfg forwardChain).cond, .jump forwardChain⟩ :: base.rules (.builtin .forward) := by
    rw [hBuilt.rules]
    rfl
  refine Table.gives_of_jump hTop (jumpRule_holds.mpr hp) (fun sub => ?_) v
  rw [hBuilt.rules]
  exact walk_forwardRules grants

/-- Packets on other interfaces get the verdict of the rules below. -/
theorem Built.gives_other (h : Built cfg grants fam base t) (hp : p.iface ≠ cfg.iface) (hook : Hook)
    (v : Verdict) : t.Gives (Match.holds host fam) hook p v ↔
      base.Gives (Match.holds host fam) hook p v := by
  refine Table.gives_congr (fun c hc => ?_) (fun sub => ?_) (by rw [h.policy]) v
  · have hOther : ownChain c = false :=
      Bool.eq_false_iff.mpr fun hOwn => h.fresh c hOwn hc
    obtain ⟨hInput, hForward⟩ : c ≠ inputChain ∧ c ≠ forwardChain := by
      simpa [ownChain] using hOther
    rw [h.rules, overlay, if_neg hInput, if_neg hForward]
  · rw [h.rules]
    cases hook with
    | input => exact walk_cons_of_not_holds (jumpRule_not_holds hp)
    | forward => exact walk_cons_of_not_holds (jumpRule_not_holds hp)
    | output => rfl

theorem Spares.gives_other {t' : Table String (Match H)} (h : Spares host cfg fam t t')
    (hFresh : ∀ c, ownChain c = true → c ∉ t'.names) (hp : p.iface ≠ cfg.iface) (hook : Hook)
    (v : Verdict) : t.Gives (Match.holds host fam) hook p v ↔
      t'.Gives (Match.holds host fam) hook p v := by
  refine Table.gives_congr (fun c hc => ?_) (fun sub => ?_) (by rw [h.policy]) v
  · exact (h.chains c (Bool.eq_false_iff.mpr fun hOwn => hFresh c hOwn hc)).symm
  · exact (h.hooks hook sub p hp).symm

end Verdicts

section Commands

variable {host : Host H} {cfg : Config} {grants : List PortGrant} {fam : Family}
  {t t' : Table String (Match H)}

/-- What `applyTable` does to the table of its family. -/
def buildCommands (cfg : Config) (grants : List PortGrant) (fam : Family) :
    List (Command String (Match H)) :=
  .newChain inputChain :: .newChain forwardChain ::
    ((inputRules cfg grants fam).map (Command.append (.user inputChain)) ++
      ((forwardRules grants fam).map (Command.append (.user forwardChain)) ++
        [.insert (.builtin .input) (inputJump cfg), .insert (.builtin .forward) (forwardJump cfg)]))

theorem map_tableCommands : (tableCommands cfg grants fam).map Prod.fst ++
      [.insert (.builtin .forward) (forwardJump cfg)] =
    buildCommands (H := H) cfg grants fam := by
  simp [tableCommands, buildCommands, inputRules, forwardRules, acceptRules, portGrantRules,
    Function.comp_def]

/-- The binary accepts the rules. -/
def Accepted (host : Host H) (cfg : Config) (grants : List PortGrant) (fam : Family) : Prop :=
  (∀ r ∈ inputRules cfg grants fam, Match.valid host fam r.cond = true) ∧
    ∀ r ∈ forwardRules grants fam, Match.valid host fam r.cond = true

variable {r : Rule String (Match H)}

theorem callee_inputRules (h : r ∈ inputRules cfg grants fam) : r.target.callee = none := by
  rcases List.mem_append.mp h with hAccept | hDrop
  · rw [target_acceptRules hAccept]
    rfl
  · rw [List.mem_singleton.mp hDrop]
    rfl

theorem callee_forwardRules (h : r ∈ forwardRules grants fam) : r.target.callee = none := by
  rcases List.mem_append.mp h with hAccept | hDrop
  · rw [target_grantRules hAccept]
    rfl
  · rw [List.mem_singleton.mp hDrop]
    rfl

theorem resolves_of_callee_none (h : r.target.callee = none) : t.resolves r = true := by
  rw [Table.resolves, h]
  rfl

theorem overlay_eq (rules : Chain String → List (Rule String (Match H))) :
    overlay cfg grants fam rules =
      Function.update (Function.update (Function.update (Function.update rules
        (.user inputChain) (inputRules cfg grants fam))
        (.user forwardChain) (forwardRules grants fam))
        (.builtin .input) (inputJump cfg :: rules (.builtin .input)))
        (.builtin .forward) (forwardJump cfg :: rules (.builtin .forward)) := by
  funext ch
  cases ch with
  | builtin hook => cases hook <;> simp [overlay]
  | user c =>
      have hNe : inputChain ≠ forwardChain := by decide
      simp only [overlay, Function.update_apply, Chain.user.injEq, reduceCtorEq, if_false]
      split
      next hInput => rw [hInput, if_neg hNe]
      next => rfl

/-- The tables between the commands of `applyTable`. -/
theorem built_of_edits {t₁ t₂ t₃ t₄ t₅ : Table String (Match H)} (hInput : inputChain ∉ t.names)
    (hForward : forwardChain ∉ t.names) (h₁ : t.Rename (inputChain :: t.names) t₁)
    (h₂ : t₁.Rename (forwardChain :: t₁.names) t₂)
    (h₃ : t₂.Edit (.user inputChain) (t₂.rules (.user inputChain) ++ inputRules cfg grants fam) t₃)
    (h₄ : t₃.Edit (.user forwardChain) (t₃.rules (.user forwardChain) ++ forwardRules grants fam) t₄)
    (h₅ : t₄.Edit (.builtin .input) (inputJump cfg :: t₄.rules (.builtin .input)) t₅)
    (h₆ : t₅.Edit (.builtin .forward) (forwardJump cfg :: t₅.rules (.builtin .forward)) t') :
    Built cfg grants fam t t' := by
  have hNe : forwardChain ≠ inputChain := by decide
  refine ⟨?_, ?_, ?_⟩
  · intro c hc
    rcases (Bool.or_eq_true _ _).mp hc with hIn | hFwd
    · rw [of_decide_eq_true hIn]
      exact hInput
    · rw [of_decide_eq_true hFwd]
      exact hForward
  · rw [overlay_eq, h₆.rules, h₅.rules, h₄.rules, h₃.rules, h₂.rules, h₁.rules]
    simp [t.absent _ hInput, t.absent _ hForward, hNe]
  · rw [h₆.policy, h₅.policy, h₄.policy, h₃.policy, h₂.policy, h₁.policy]

variable [DecidableEq H]

/-- If the commands of `applyTable` all succeed, the binary accepts the rules and the table
is built. -/
theorem built_of_buildCommands
    (h : (buildCommands cfg grants fam).foldlM (Table.exec (Match.valid host fam)) t = some t') :
    Accepted host cfg grants fam ∧ Built cfg grants fam t t' := by
  simp only [buildCommands, List.foldlM_cons, List.foldlM_append, List.foldlM_nil,
    Option.bind_eq_bind, Option.bind_eq_some_iff, Table.exec_newChain, Table.exec_insert] at h
  obtain ⟨t₁, ⟨hInput, h₁⟩, t₂, ⟨hNew, h₂⟩, t₃, h₃, t₄, h₄, t₅, ⟨_, h₅⟩, t₆, ⟨_, h₆⟩, hSame⟩ := h
  cases hSame
  have hNames : t₂.names = forwardChain :: inputChain :: t.names := by rw [h₂.names, h₁.names]
  obtain ⟨hValidIn, h₃⟩ := (Table.exec_appends (by simp [Table.has, hNames]) _).mp h₃
  obtain ⟨hValidFwd, h₄⟩ := (Table.exec_appends (by simp [Table.has, h₃.names, hNames]) _).mp h₄
  rw [h₁.names] at hNew
  have hForward : forwardChain ∉ t.names := fun hMem => hNew (List.mem_cons_of_mem _ hMem)
  exact ⟨⟨fun r hr => (hValidIn r hr).2, fun r hr => (hValidFwd r hr).2⟩,
    built_of_edits hInput hForward h₁ h₂ h₃ h₄ h₅ h₆⟩

/-- The commands of `applyTable` succeed over a table without the agent's chains, if the
binary accepts the rules. -/
theorem exists_of_buildCommands (hAccepted : Accepted host cfg grants fam)
    (hFresh : ∀ c, ownChain c = true → c ∉ t.names) :
    ∃ t', (buildCommands cfg grants fam).foldlM (Table.exec (Match.valid host fam)) t = some t' := by
  obtain ⟨hValidIn, hValidFwd⟩ := hAccepted
  obtain ⟨t₁, h₁⟩ := Table.exists_rename_cons t inputChain
  obtain ⟨t₂, h₂⟩ := Table.exists_rename_cons t₁ forwardChain
  have hNew : forwardChain ∉ t₁.names := by
    rw [h₁.names]
    exact List.not_mem_cons_of_ne_of_not_mem (by decide) (hFresh forwardChain rfl)
  have hNames : t₂.names = forwardChain :: inputChain :: t.names := by rw [h₂.names, h₁.names]
  have hResIn : ∀ r ∈ inputRules cfg grants fam, t₂.resolves r = true :=
    fun r hr => resolves_of_callee_none (callee_inputRules hr)
  have hHasIn : t₂.has (.user inputChain) = true := by simp [Table.has, hNames]
  obtain ⟨t₃, h₃⟩ := Table.exists_edit_append hHasIn hResIn
  have hResFwd : ∀ r ∈ forwardRules grants fam, t₃.resolves r = true :=
    fun r hr => resolves_of_callee_none (callee_forwardRules hr)
  have hHasFwd : t₃.has (.user forwardChain) = true := by simp [Table.has, h₃.names, hNames]
  obtain ⟨t₄, h₄⟩ := Table.exists_edit_append hHasFwd hResFwd
  have hJumpIn : t₄.resolves (inputJump cfg) = true := by
    simp [Table.resolves, inputJump, jumpRule, Target.callee, h₄.names, h₃.names, hNames]
  have hHook : ∀ (t : Table String (Match H)) hook, t.has (.builtin hook) = true := fun _ _ => rfl
  obtain ⟨t₅, h₅⟩ := Table.exists_edit_cons (hHook t₄ .input) hJumpIn
  have hJumpFwd : t₅.resolves (forwardJump cfg) = true := by
    simp [Table.resolves, forwardJump, jumpRule, Target.callee, h₅.names, h₄.names, h₃.names, hNames]
  obtain ⟨t₆, h₆⟩ := Table.exists_edit_cons (hHook t₅ .forward) hJumpFwd
  refine ⟨t₆, ?_⟩
  simp only [buildCommands, List.foldlM_cons, List.foldlM_append, List.foldlM_nil,
    Option.bind_eq_bind, Option.bind_eq_some_iff, Table.exec_newChain, Table.exec_insert]
  exact ⟨t₁, ⟨hFresh inputChain rfl, h₁⟩, t₂, ⟨hNew, h₂⟩, t₃,
    (Table.exec_appends hHasIn _).mpr ⟨fun r hr => ⟨hResIn r hr, hValidIn r hr⟩, h₃⟩, t₄,
    (Table.exec_appends hHasFwd _).mpr ⟨fun r hr => ⟨hResFwd r hr, hValidFwd r hr⟩, h₄⟩,
    t₅, ⟨⟨rfl, hJumpIn, rfl⟩, h₅⟩, t₆, ⟨⟨rfl, hJumpFwd, rfl⟩, h₆⟩, rfl⟩

end Commands

end Build

section Apply

variable {H : Type} [DecidableEq H] {host : Host H} {faults : Faults H} {cfg : Config}
  {grants : List PortGrant} {fam : Family} {w : World H} {m : Manager}

theorem applyTable_eq_none (h : (w.applyTable host faults cfg grants fam).2 = none) :
    ∃ t, Accepted host cfg grants fam ∧ Built cfg grants fam (w.tables fam) t ∧
      (w.applyTable host faults cfg grants fam).1.tables = Function.update w.tables fam t := by
  have hCommands : (w.runAll host faults fam (tableCommands cfg grants fam)).2 = none →
      ∃ t, ((tableCommands cfg grants fam).map Prod.fst).foldlM (Table.exec (Match.valid host fam))
          (w.tables fam) = some t ∧
        (w.runAll host faults fam (tableCommands cfg grants fam)).1.tables =
          Function.update w.tables fam t := runAll_eq_none
  unfold World.applyTable at h ⊢
  generalize w.runAll host faults fam (tableCommands cfg grants fam) = outcome at hCommands h ⊢
  obtain ⟨w', _ | e⟩ := outcome
  · obtain ⟨t, hFold, hTables⟩ := hCommands rfl
    dsimp only at hTables h ⊢
    rcases run_cases host faults w' fam (.insert (.builtin .forward) (forwardJump cfg)) with
      ⟨t', hExec, hRun⟩ | hRun
    · rw [hRun]
      rw [hTables, Function.update_self] at hExec
      have hBuild : (buildCommands cfg grants fam).foldlM (Table.exec (Match.valid host fam))
          (w.tables fam) = some t' := by
        rw [← map_tableCommands, List.foldlM_append, hFold]
        simpa using hExec
      obtain ⟨hAccepted, hBuilt⟩ := built_of_buildCommands hBuild
      refine ⟨t', hAccepted, hBuilt, ?_⟩
      dsimp only
      rw [hTables, Function.update_idem]
    · rw [hRun] at h
      cases h
  · cases h

/-- `Apply` succeeds only if both tables are built over what teardown leaves. -/
theorem apply_eq_none (h : (m.apply host faults w).2.2 = none) :
    (m.apply host faults w).1 = { m with enabled := true } ∧
      ∀ fam, Accepted host m.cfg m.portGrants fam ∧
        Built m.cfg m.portGrants fam ((w.teardown host faults m.cfg).tables fam)
          ((m.apply host faults w).2.1.tables fam) := by
  unfold Manager.apply at h ⊢
  generalize w.teardown host faults m.cfg = torn at h ⊢
  split at h
  · cases h
  · split at h
    · cases h
    next hIface =>
      simp only [families, World.applyTables] at h ⊢
      rw [if_neg hIface]
      have hFirst : (torn.applyTable host faults m.cfg m.portGrants .v4).2 = none → _ :=
        applyTable_eq_none
      generalize torn.applyTable host faults m.cfg m.portGrants .v4 = first at hFirst h ⊢
      obtain ⟨w₄, _ | e⟩ := first
      · obtain ⟨t₄, hAccepted₄, hBuilt₄, hTables₄⟩ := hFirst rfl
        have hSecond : (w₄.applyTable host faults m.cfg m.portGrants .v6).2 = none → _ :=
          applyTable_eq_none
        dsimp only at h ⊢
        generalize w₄.applyTable host faults m.cfg m.portGrants .v6 = second at hSecond h ⊢
        obtain ⟨w₆, _ | e⟩ := second
        · obtain ⟨t₆, hAccepted₆, hBuilt₆, hTables₆⟩ := hSecond rfl
          refine ⟨rfl, fun fam => ?_⟩
          dsimp only at hTables₄ hTables₆ ⊢
          rw [hTables₆]
          cases fam with
          | v4 =>
              rw [hTables₄]
              exact ⟨hAccepted₄, hBuilt₄⟩
          | v6 =>
              rw [hTables₄] at hBuilt₆
              exact ⟨hAccepted₆, hBuilt₆⟩
        · cases h
      · cases h

/-- After `Apply` has succeeded, packets on the WireGuard interface have the verdict of the
policy and packets on other interfaces the verdict they had before, whatever was in the
tables and whichever commands of the teardown failed. -/
theorem apply_enforces_policy (host : Host H) (faults : Faults H) (m : Manager) (w : World H)
    (hApplied : (m.apply host faults w).2.2 = none) (fam : Family) (p : Packet) :
    (p.iface = m.cfg.iface → ∀ v,
      (((m.apply host faults w).2.1.tables fam).Gives (Match.holds host fam) .input p v ↔
        v = verdict (permitted host fam p m.cfg m.portGrants)) ∧
      (((m.apply host faults w).2.1.tables fam).Gives (Match.holds host fam) .forward p v ↔
        v = verdict (granted host fam p m.portGrants))) ∧
    (p.iface ≠ m.cfg.iface → ∀ hook v,
      (((m.apply host faults w).2.1.tables fam).Gives (Match.holds host fam) hook p v ↔
        (w.tables fam).Gives (Match.holds host fam) hook p v)) := by
  obtain ⟨_, hTables⟩ := apply_eq_none hApplied
  obtain ⟨_, hBuilt⟩ := hTables fam
  have hInstalled : Installed m.cfg m.portGrants fam ((m.apply host faults w).2.1.tables fam) :=
    ⟨_, hBuilt⟩
  refine ⟨fun hp v => ⟨hInstalled.gives_input hp v, hInstalled.gives_forward hp v⟩,
    fun hp hook v => ?_⟩
  have hSpares : Spares host m.cfg fam (w.tables fam) ((w.teardown host faults m.cfg).tables fam) :=
    spares_teardown w fam
  exact (hBuilt.gives_other hp hook v).trans (hSpares.gives_other hBuilt.fresh hp hook v).symm

end Apply

section Sample

/-- A host without conditions of its own that reads one source address. -/
def sampleHost : Host Empty where
  holds := fun h => nomatch h
  source := fun fam text =>
    if fam = .v4 ∧ text = "100.64.0.2" then some (· = [100, 64, 0, 2]) else none

theorem plain_sampleIface : "wg-atreo".toList.getLast? ≠ some '+' := by decide

def sampleConfig : Config :=
  { iface := "wg-atreo", allowedTCPPorts := [443, 0], plain := plain_sampleIface }

def sampleGrant (ports : List Int) : PortGrant :=
  { sourceIP := "100.64.0.2", sourceIPv6 := "", tcp := ports, udp := [] }

/-- A manager that has not applied anything yet. -/
def sampleManager (grants : List PortGrant) : Manager :=
  { NewManager sampleConfig with portGrants := grants }

/-- A table without rules that accepts everything. -/
def openTable : Table String (Match Empty) where
  rules := fun _ => []
  names := []
  policy := fun _ => .accept
  absent := fun _ _ => rfl
  closed := fun _ _ hr => nomatch hr

/-- What a crash may leave: a chain that accepts everything, and three jumps to it. -/
def staleTable : Table String (Match Empty) :=
  ([.newChain inputChain, .append (.user inputChain) ⟨Match.any, .accept⟩,
    .insert (.builtin .input) (inputJump sampleConfig),
    .insert (.builtin .input) (inputJump sampleConfig),
    .append (.builtin .input) (inputJump sampleConfig)].foldlM
      (Table.exec (Match.valid sampleHost .v4)) openTable).getD openTable

/-- A new connection of a peer. -/
def samplePacket (dport : Nat) : Packet :=
  { iface := "wg-atreo", tracked := false, proto := .tcp, src := [100, 64, 0, 2], dport := dport,
    rest := [] }

theorem stale_table_is_confined :
    ((sampleManager [sampleGrant [22]]).apply sampleHost Faults.none ⟨fun _ => staleTable, []⟩).2.2 =
        none ∧
      ∀ fam v, (((sampleManager [sampleGrant [22]]).apply sampleHost Faults.none
          ⟨fun _ => staleTable, []⟩).2.1.tables fam).Gives (Match.holds sampleHost fam) .input
            (samplePacket 23) v ↔ v = .drop := by
  have hApplied : ((sampleManager [sampleGrant [22]]).apply sampleHost Faults.none
      ⟨fun _ => staleTable, []⟩).2.2 = none := by decide +kernel
  refine ⟨hApplied, fun fam v => ?_⟩
  have hVerdict := ((apply_enforces_policy sampleHost Faults.none (sampleManager [sampleGrant [22]])
    ⟨fun _ => staleTable, []⟩ hApplied fam (samplePacket 23)).1 rfl v).1
  cases fam with
  | v4 => exact hVerdict
  | v6 => exact hVerdict

/-- A grant of port 0 has no rule: what it names is dropped. -/
theorem port_zero_is_dropped :
    ((sampleManager [sampleGrant [0]]).apply sampleHost Faults.none ⟨fun _ => openTable, []⟩).2.2 =
        none ∧
      sampleHost.reads .v4 (sampleGrant [0]).sourceIP (samplePacket 0).src = true ∧
      (samplePacket 0).proto = .tcp ∧ ((samplePacket 0).dport : Int) ∈ (sampleGrant [0]).tcp ∧
      ∀ v, (((sampleManager [sampleGrant [0]]).apply sampleHost Faults.none
        ⟨fun _ => openTable, []⟩).2.1.tables .v4).Gives (Match.holds sampleHost .v4) .input
          (samplePacket 0) v ↔ v = .drop := by
  have hApplied : ((sampleManager [sampleGrant [0]]).apply sampleHost Faults.none
      ⟨fun _ => openTable, []⟩).2.2 = none := by decide +kernel
  obtain ⟨_, hTables⟩ := apply_eq_none hApplied
  exact ⟨hApplied, by decide, rfl, by decide,
    Installed.gives_input ⟨_, (hTables .v4).2⟩ rfl⟩

end Sample

end Firewall
