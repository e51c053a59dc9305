import AtreoAgent.Firewall.Apply
import AtreoAgent.Machine.Run

/-! Whether peers are confined between two commands. `Apply` takes out the jumps and the
chains before it builds them again, so the tables are open in between; they stay closed
only if nothing is rebuilt or no command of the teardown takes effect. -/
namespace Firewall

open Netfilter Machine

section Reach

variable {H : Type} [DecidableEq H]

/-- The rule leads into the agent's chains. -/
def ownJump (cfg : Config) (r : Rule String (Match H)) : Bool :=
  r = inputJump cfg || r = forwardJump cfg

/-- The packet passes the agent's jumps at the top of the chain and goes on to the rules of
the host. -/
def ReachesHost (host : Host H) (cfg : Config) (fam : Family) (t : Table String (Match H))
    (hook : Hook) (p : Packet) : Prop :=
  ∃ depth, walk (Match.holds host fam) (t.traverse (Match.holds host fam) p depth) p
    ((t.rules (.builtin hook)).takeWhile (ownJump cfg)) = some .returned

variable {host : Host H} {cfg : Config} {grants : List PortGrant} {fam : Family}
  {t : Table String (Match H)} {p : Packet}

/-- No packet of a peer passes the rules that are installed. -/
theorem Installed.not_reachesHost (h : Installed cfg grants fam t) (hp : p.iface = cfg.iface) :
    ¬ ReachesHost host cfg fam t .input p ∧ ¬ ReachesHost host cfg fam t .forward p := by
  obtain ⟨base, hBuilt⟩ := h
  have hCond : ∀ {chain}, (jumpRule (H := H) cfg chain).cond.holds host fam p = true :=
    jumpRule_holds.mpr hp
  constructor
  · rintro ⟨depth, hWalk⟩
    have hTop : (t.rules (.builtin .input)).takeWhile (ownJump cfg) =
        ⟨(jumpRule cfg inputChain).cond, .jump inputChain⟩ ::
          (base.rules (.builtin .input)).takeWhile (ownJump cfg) := by
      rw [hBuilt.rules]
      exact List.takeWhile_cons_of_pos (by simp [ownJump])
    have hDecides : ∀ sub, walk (Match.holds host fam) sub p (t.rules (.user inputChain)) =
        some (.decided (verdict (permitted host fam p cfg grants))) := by
      intro sub
      rw [hBuilt.rules]
      exact walk_inputRules cfg grants
    rw [hTop, Table.walk_jump hCond hDecides] at hWalk
    split at hWalk <;> cases hWalk
  · rintro ⟨depth, hWalk⟩
    have hTop : (t.rules (.builtin .forward)).takeWhile (ownJump cfg) =
        ⟨(jumpRule cfg forwardChain).cond, .jump forwardChain⟩ ::
          (base.rules (.builtin .forward)).takeWhile (ownJump cfg) := by
      rw [hBuilt.rules]
      exact List.takeWhile_cons_of_pos (by simp [ownJump])
    have hDecides : ∀ sub, walk (Match.holds host fam) sub p (t.rules (.user forwardChain)) =
        some (.decided (verdict (granted host fam p grants))) := by
      intro sub
      rw [hBuilt.rules]
      exact walk_forwardRules grants
    rw [hTop, Table.walk_jump hCond hDecides] at hWalk
    split at hWalk <;> cases hWalk

end Reach

section Still

variable {H : Type} [DecidableEq H] {host : Host H} {faults : Faults H} {cfg : Config}
  {grants : List PortGrant} {w w' w'' : World H} {fam : Family}

/-- Nothing has changed, also not in between. -/
structure Still (w w' : World H) : Prop where
  tables : w'.tables = w.tables
  visited : ∀ tables ∈ w'.visited, tables ∈ w.visited ∨ tables = w.tables

omit [DecidableEq H] in
theorem Still.refl (w : World H) : Still w w := ⟨rfl, fun _ h => Or.inl h⟩

omit [DecidableEq H] in
theorem Still.trans (h : Still w w') (h' : Still w' w'') : Still w w'' where
  tables := h'.tables.trans h.tables
  visited := by
    intro tables hTables
    rcases h'.visited tables hTables with hOld | hSame
    · exact h.visited tables hOld
    · exact Or.inr (hSame.trans h.tables)

/-- A command that is denied or refused, or that does not change the table. -/
theorem still_run {cmd : Command String (Match H)}
    (h : (∀ n, faults.denies n fam cmd = true) ∨
      ∀ t, (w.tables fam).exec (Match.valid host fam) cmd = some t → t = w.tables fam) :
    Still w (w.run host faults fam cmd).1 := by
  have hSame : ∀ tables, tables = w.tables →
      Still w { tables := tables, visited := tables :: w.visited } := by
    rintro _ rfl
    refine ⟨rfl, fun tables hTables => ?_⟩
    rcases List.mem_cons.mp hTables with hNew | hOld
    · exact Or.inr hNew
    · exact Or.inl hOld
  unfold World.run
  split
  · exact hSame w.tables rfl
  next t ht =>
    split at ht
    · cases ht
    next hDenied =>
      refine hSame _ ?_
      rcases h with hDenies | hKept
      · exact absurd (hDenies _) hDenied
      · rw [hKept t ht, Function.update_eq_self]

/-- The command takes out rules. -/
def removes : Command String (Match H) → Bool
  | .delete _ _ => true
  | .flush _ => true
  | _ => false

/-- Every command that would take out rules fails. -/
def Faults.Keeps (faults : Faults H) : Prop :=
  ∀ n fam cmd, removes cmd = true → faults.denies n fam cmd = true

/-- The rules for some grants are installed in both families. -/
def Guarded (cfg : Config) (tables : Tables H) : Prop :=
  ∃ grants, ∀ fam, Installed cfg grants fam (tables fam)

omit [DecidableEq H] in
theorem Guarded.rules_ne_nil (h : Guarded cfg w.tables) {c : String} (hOwn : ownChain c = true) :
    (w.tables fam).rules (.user c) ≠ [] := by
  obtain ⟨grants, hInstalled⟩ := h
  obtain ⟨base, hBuilt⟩ := hInstalled fam
  rw [hBuilt.rules]
  rcases (Bool.or_eq_true _ _).mp hOwn with hIn | hFwd
  · rw [of_decide_eq_true hIn, overlay, if_pos rfl]
    simp [inputRules]
  · rw [of_decide_eq_true hFwd, overlay, if_neg (by decide), if_pos rfl]
    simp [forwardRules]

theorem still_drain (hKeeps : faults.Keeps) {cmd : Command String (Match H)}
    (hRemoves : removes cmd = true) (w : World H) (n : Nat) :
    Still w (w.drain host faults fam cmd n) := by
  induction n generalizing w with
  | zero => exact Still.refl w
  | succ n ih =>
      have hFirst : Still w (w.run host faults fam cmd).1 :=
        still_run (Or.inl fun k => hKeeps k fam cmd hRemoves)
      rw [World.drain]
      generalize w.run host faults fam cmd = outcome at hFirst ⊢
      obtain ⟨w', ok⟩ := outcome
      cases ok with
      | true => exact hFirst.trans (ih w')
      | false => exact hFirst

/-- A chain with rules in it cannot be deleted. -/
theorem still_deleteChain (h : Guarded cfg w.tables) {c : String} (hOwn : ownChain c = true) :
    Still w (w.run host faults fam (.deleteChain c)).1 := by
  refine still_run (Or.inr fun t ht => ?_)
  obtain ⟨⟨_, hEmpty, _⟩, _⟩ := Table.exec_deleteChain.mp ht
  exact absurd hEmpty (h.rules_ne_nil hOwn)

theorem still_teardownTable (hKeeps : faults.Keeps) (h : Guarded cfg w.tables) (fam : Family) :
    Still w (w.teardownTable host faults cfg fam) := by
  have hDrain : ∀ (w' : World H) hook chain, Still w w' →
      Still w (w'.drain host faults fam (.delete (.builtin hook) (jumpRule cfg chain)) 8) :=
    fun w' hook chain hw' => hw'.trans (still_drain hKeeps rfl w' 8)
  have hFlush : ∀ (w' : World H) ch, Still w w' → Still w (w'.run host faults fam (.flush ch)).1 :=
    fun w' ch hw' => hw'.trans (still_run (Or.inl fun k => hKeeps k fam _ rfl))
  have hDelete : ∀ (w' : World H) c, ownChain c = true → Still w w' →
      Still w (w'.run host faults fam (.deleteChain c)).1 := by
    intro w' c hOwn hw'
    rw [← hw'.tables] at h
    exact hw'.trans (still_deleteChain h hOwn)
  exact hDelete _ _ rfl (hDelete _ _ rfl (hFlush _ _ (hFlush _ _ (hDrain _ _ _ (hDrain _ _ _
    (Still.refl w))))))

theorem still_teardown (hKeeps : faults.Keeps) (h : Guarded cfg w.tables) :
    Still w (w.teardown host faults cfg) := by
  have hFirst : Still w (w.teardownTable host faults cfg .v4) := still_teardownTable hKeeps h .v4
  rw [teardown_eq]
  refine hFirst.trans (still_teardownTable hKeeps ?_ .v6)
  rw [hFirst.tables]
  exact h

/-- The chains exist already, so the first command fails. -/
theorem still_applyTables (host : Host H) (faults : Faults H) (grants : List PortGrant)
    (h : Guarded cfg w.tables) : ∃ w' e,
    w.applyTables host faults cfg grants families = (w', some e) ∧ Still w w' := by
  have hRefused : ∀ t, (w.tables .v4).exec (Match.valid host .v4) (.newChain inputChain) ≠ some t := by
    intro t ht
    exact h.rules_ne_nil rfl ((w.tables .v4).absent inputChain (Table.exec_newChain.mp ht).1)
  have hStill : Still w (w.run host faults .v4 (.newChain inputChain)).1 :=
    still_run (Or.inr fun t ht => absurd ht (hRefused t))
  rcases run_cases host faults w .v4 (.newChain inputChain) with ⟨t, ht, _⟩ | hRun
  · exact absurd ht (hRefused t)
  · rw [hRun] at hStill
    refine ⟨_, Family.v4.bin ++ " create " ++ inputChain, ?_, hStill⟩
    rw [families, World.applyTables, World.applyTable, tableCommands]
    simp only [List.cons_append, World.runAll, hRun]

theorem still_apply {m : Manager} (hKeeps : faults.Keeps) (h : Guarded m.cfg w.tables) :
    (m.apply host faults w).1 = m ∧ Still w (m.apply host faults w).2.1 := by
  unfold Manager.apply
  split
  · exact ⟨rfl, Still.refl w⟩
  · split
    · exact ⟨rfl, Still.refl w⟩
    · have hTorn : Still w (w.teardown host faults m.cfg) := still_teardown hKeeps h
      have hGuarded : Guarded m.cfg (w.teardown host faults m.cfg).tables := by
        rw [hTorn.tables]
        exact h
      obtain ⟨w', e, hTables, hStill⟩ := still_applyTables host faults m.portGrants hGuarded
      rw [hTables]
      have hAgain : Guarded m.cfg w'.tables := by
        rw [hStill.tables]
        exact hGuarded
      exact ⟨rfl, hTorn.trans (hStill.trans (still_teardown hKeeps hAgain))⟩

end Still

section Calls

variable {H : Type} [DecidableEq H] {host : Host H} {cfg : Config} {w : World H} {fam : Family}

variable {faults : Faults H} {m : Manager}

/-- The watchdog finds the jumps. -/
theorem present_of_guarded (host : Host H) (h : Guarded cfg w.tables)
    (hChecks : ∀ n fam, faults.denies n fam (.check (.builtin .input) (inputJump cfg)) = false) :
    ∀ fams, ∃ w', w.present host faults cfg fams = (w', true) ∧ Still w w' := by
  intro fams
  induction fams generalizing w with
  | nil => exact ⟨w, rfl, Still.refl w⟩
  | cons fam fams ih =>
      obtain ⟨grants, hInstalled⟩ := h
      obtain ⟨base, hBuilt⟩ := hInstalled fam
      have hFound : (w.tables fam).exec (Match.valid host fam)
          (.check (.builtin .input) (inputJump cfg)) = some (w.tables fam) := by
        refine Table.exec_check.mpr ⟨?_, rfl⟩
        rw [hBuilt.rules]
        exact List.mem_cons_self
      have hStill : Still w (w.run host faults fam (.check (.builtin .input) (inputJump cfg))).1 :=
        still_run (Or.inr fun t ht => (Option.some_inj.mp (hFound.symm.trans ht)).symm)
      have hOk : (w.run host faults fam (.check (.builtin .input) (inputJump cfg))).2 = true := by
        rw [World.run, hChecks, if_neg Bool.false_ne_true, hFound]
      rw [World.present]
      generalize w.run host faults fam (.check (.builtin .input) (inputJump cfg)) = outcome
        at hStill hOk ⊢
      obtain ⟨w₁, ok⟩ := outcome
      cases hOk
      have hGuarded : Guarded cfg w₁.tables := by
        rw [hStill.tables]
        exact ⟨grants, hInstalled⟩
      obtain ⟨w', hRest, hStill'⟩ := ih hGuarded
      exact ⟨w', hRest, hStill.trans hStill'⟩

theorem still_present (fams : List Family) (w : World H) :
    Still w (w.present host faults cfg fams).1 := by
  induction fams generalizing w with
  | nil => exact Still.refl w
  | cons fam fams ih =>
      have hFirst : Still w (w.run host faults fam (.check (.builtin .input) (inputJump cfg))).1 :=
        still_run (Or.inr fun t ht => (Table.exec_check.mp ht).2.symm)
      rw [World.present]
      generalize w.run host faults fam (.check (.builtin .input) (inputJump cfg)) = outcome
        at hFirst ⊢
      obtain ⟨w₁, ok⟩ := outcome
      cases ok with
      | true => exact hFirst.trans (ih w₁)
      | false => exact hFirst

/-- The call has nothing to rebuild, because the grants are the remembered ones or because
the watchdog can see the jumps. -/
def Call.Unneeded (m : Manager) (faults : Faults H) : Call → Prop
  | .setPortGrants grants => grantsEqual m.portGrants grants = true
  | .reconcileFirewallGrants store => grantsEqual m.portGrants (aclGrants store) = true
  | .tick => ∀ n fam, faults.denies n fam (.check (.builtin .input) (inputJump m.cfg)) = false
  | .apply => False
  | .stop => False

/-- The call rebuilds nothing, or cannot start, or takes nothing out. -/
def Input.Harmless (m : Manager) (i : Input H) : Prop :=
  i.call.Unneeded m i.faults ∨ (∃ fam, i.faults.onPath fam = false) ∨ i.faults.Keeps

theorem still_apply_of_missing (h : ∃ fam, faults.onPath fam = false) :
    (m.apply host faults w).1 = m ∧ Still w (m.apply host faults w).2.1 := by
  unfold Manager.apply
  cases hMissing : families.find? (!faults.onPath ·) with
  | some fam => exact ⟨rfl, Still.refl w⟩
  | none =>
      obtain ⟨fam, hPath⟩ := h
      have hListed : fam ∈ families := by cases fam <;> decide
      have hFound := List.find?_eq_none.mp hMissing fam hListed
      rw [hPath] at hFound
      exact absurd rfl hFound

theorem still_setPortGrants {grants : List PortGrant} (h : Guarded m.cfg w.tables)
    (hHarmless : grantsEqual m.portGrants grants = true ∨ (∃ fam, faults.onPath fam = false) ∨
      faults.Keeps) :
    (m.setPortGrants host faults w grants).1.cfg = m.cfg ∧
      Still w (m.setPortGrants host faults w grants).2.1 := by
  unfold Manager.setPortGrants
  split
  · exact ⟨rfl, Still.refl w⟩
  next hNew =>
    have hApply : (Manager.apply host faults { m with portGrants := grants } w).1 =
          { m with portGrants := grants } ∧
        Still w (Manager.apply host faults { m with portGrants := grants } w).2.1 := by
      rcases hHarmless with hSame | hMissing | hKeeps
      · exact absurd hSame hNew
      · exact still_apply_of_missing hMissing
      · exact still_apply hKeeps h
    dsimp only
    split
    · rw [hApply.1]
      exact ⟨rfl, hApply.2⟩
    · exact ⟨rfl, Still.refl w⟩

theorem still_tick (h : Guarded m.cfg w.tables)
    (hHarmless : (∀ n fam, faults.denies n fam (.check (.builtin .input) (inputJump m.cfg)) = false) ∨
      (∃ fam, faults.onPath fam = false) ∨ faults.Keeps) :
    (m.tick host faults w).1.cfg = m.cfg ∧ Still w (m.tick host faults w).2.1 := by
  unfold Manager.tick
  split
  · have hStill : Still w (w.present host faults m.cfg families).1 := still_present families w
    have hPresent : (∀ n fam, faults.denies n fam (.check (.builtin .input) (inputJump m.cfg)) = false) →
        (w.present host faults m.cfg families).2 = true := by
      intro hChecks
      obtain ⟨w', hFound, _⟩ := present_of_guarded host h hChecks families
      rw [hFound]
    generalize w.present host faults m.cfg families = outcome at hStill hPresent ⊢
    obtain ⟨w', ok⟩ := outcome
    cases ok with
    | true => exact ⟨rfl, hStill⟩
    | false =>
        have hGuarded : Guarded m.cfg w'.tables := by
          rw [hStill.tables]
          exact h
        have hApply : (m.apply host faults w').1 = m ∧ Still w' (m.apply host faults w').2.1 := by
          rcases hHarmless with hChecks | hMissing | hKeeps
          · cases hPresent hChecks
          · exact still_apply_of_missing hMissing
          · exact still_apply hKeeps hGuarded
        exact ⟨congrArg Manager.cfg hApply.1, hStill.trans hApply.2⟩
  · exact ⟨rfl, Still.refl w⟩

/-- A harmless call changes nothing. -/
theorem still_handle {i : Input H} (h : Guarded m.cfg w.tables) (hCall : i.call ≠ .stop)
    (hHarmless : i.Harmless m) :
    (m.handle host w i).1.cfg = m.cfg ∧ Still w (m.handle host w i).2.1 := by
  obtain ⟨call, faults⟩ := i
  cases call with
  | apply =>
      have hApply : (m.apply host faults w).1 = m ∧ Still w (m.apply host faults w).2.1 := by
        rcases hHarmless with hFalse | hMissing | hKeeps
        · exact hFalse.elim
        · exact still_apply_of_missing hMissing
        · exact still_apply hKeeps h
      exact ⟨congrArg Manager.cfg hApply.1, hApply.2⟩
  | setPortGrants grants => exact still_setPortGrants h hHarmless
  | reconcileFirewallGrants store => exact still_setPortGrants h hHarmless
  | tick => exact still_tick h hHarmless
  | stop => exact absurd rfl hCall

/-- The system after a first `Apply`. -/
def Manager.started (host : Host H) (faults : Faults H) (m : Manager) (w : World H) : System H :=
  { manager := (m.apply host faults w).1
    tables := (m.apply host faults w).2.1.tables
    visited := []
    result := (m.apply host faults w).2.2 }

/-- The rules are installed, and were so after every command of the last call. -/
structure System.Confined (cfg : Config) (s : System H) : Prop where
  config : s.manager.cfg = cfg
  guarded : Guarded cfg s.tables
  visited : ∀ tables ∈ s.visited, tables = s.tables

theorem confined_step {s : System H} (h : s.Confined cfg) {i : Input H}
    (hStep : i.call ≠ .stop ∧ i.Harmless s.manager) : (s.step host i).Confined cfg := by
  obtain ⟨hConfig, hGuarded, _⟩ := h
  rw [← hConfig] at hGuarded
  obtain ⟨hCfg, hStill⟩ : (s.manager.handle host ⟨s.tables, []⟩ i).1.cfg = s.manager.cfg ∧
      Still ⟨s.tables, []⟩ (s.manager.handle host ⟨s.tables, []⟩ i).2.1 :=
    still_handle hGuarded hStep.1 hStep.2
  have hTables : (s.step host i).tables = s.tables := hStill.tables
  refine ⟨hCfg.trans hConfig, ?_, fun tables hTables' => ?_⟩
  · rw [hTables, ← hConfig]
    exact hGuarded
  · rcases hStill.visited tables hTables' with hOld | hSame
    · cases hOld
    · exact hSame.trans hTables.symm

/-- After a first successful `Apply`, in every run of harmless calls before `Stop`, no packet
of a peer reaches the rules of the host, between two calls or between two commands. -/
theorem peers_stay_confined (host : Host H) (faults : Faults H) (m : Manager) (w : World H)
    (hApplied : (m.apply host faults w).2.2 = none) (inputs : List (Input H))
    (hSteps : Meets (System.step host) (fun s i => i.call ≠ .stop ∧ i.Harmless s.manager)
      (m.started host faults w) inputs) (k : Nat) (tables : Tables H)
    (hBetween : tables ∈ (run (System.step host) (m.started host faults w)
        (inputs.take k)).tables ::
      (run (System.step host) (m.started host faults w) (inputs.take k)).visited)
    (fam : Family) (p : Packet) (hPeer : p.iface = m.cfg.iface) :
    ¬ ReachesHost host m.cfg fam (tables fam) .input p ∧
      ¬ ReachesHost host m.cfg fam (tables fam) .forward p := by
  obtain ⟨hManager, hTables⟩ := apply_eq_none hApplied
  have hConfig : (m.started host faults w).manager.cfg = m.cfg := by
    rw [Manager.started, hManager]
  have hInit : (m.started host faults w).Confined m.cfg :=
    ⟨hConfig, ⟨m.portGrants, fun fam => ⟨_, (hTables fam).2⟩⟩, fun _ hNone => nomatch hNone⟩
  have hInv : (run (System.step host) (m.started host faults w) (inputs.take k)).Confined
      m.cfg :=
    invariant_run (System.Confined m.cfg) (fun s i h hStep => confined_step h hStep) hInit
      (hSteps.take k)
  have hSame : tables =
      (run (System.step host) (m.started host faults w) (inputs.take k)).tables := by
    rcases List.mem_cons.mp hBetween with hNow | hVisited
    · exact hNow
    · exact hInv.visited tables hVisited
  obtain ⟨grants, hInstalled⟩ := hInv.guarded
  rw [hSame]
  exact (hInstalled fam).not_reachesHost hPeer

end Calls

section Sample

/-- The sample system after its first `Apply`, without grants. -/
def sampleSystem : System Empty :=
  (sampleManager []).started sampleHost Faults.none ⟨fun _ => openTable, []⟩

/-- Nothing can be taken out. -/
def keptFaults : Faults Empty := { onPath := fun _ => true, denies := fun _ _ cmd => removes cmd }

/-- The same grants, a tick, and new grants while nothing can be taken out. -/
def harmlessInputs : List (Input Empty) :=
  [⟨.setPortGrants [], Faults.none⟩, ⟨.tick, Faults.none⟩,
    ⟨.setPortGrants [sampleGrant [22]], keptFaults⟩]

theorem harmless_calls_confined :
    sampleSystem.result = none ∧ ∀ k, ∀ tables ∈ (run (System.step sampleHost) sampleSystem
          (harmlessInputs.take k)).tables ::
        (run (System.step sampleHost) sampleSystem (harmlessInputs.take k)).visited,
      ∀ fam, ¬ ReachesHost sampleHost sampleConfig fam (tables fam) .input (samplePacket 23) ∧
        ¬ ReachesHost sampleHost sampleConfig fam (tables fam) .forward (samplePacket 23) := by
  have hApplied : ((sampleManager []).apply sampleHost Faults.none ⟨fun _ => openTable, []⟩).2.2 =
      none := by decide +kernel
  have hSame : grantsEqual sampleSystem.manager.portGrants [] = true := by decide +kernel
  have hKeeps : keptFaults.Keeps := fun _ _ _ hRemoves => hRemoves
  have hSteps : Meets (System.step sampleHost)
      (fun s i => i.call ≠ .stop ∧ i.Harmless s.manager) sampleSystem harmlessInputs :=
    ⟨⟨nofun, Or.inl hSame⟩, ⟨nofun, Or.inl fun _ _ => rfl⟩, ⟨nofun, Or.inr (Or.inr hKeeps)⟩, trivial⟩
  refine ⟨hApplied, fun k tables hBetween fam => ?_⟩
  exact peers_stay_confined sampleHost Faults.none (sampleManager []) ⟨fun _ => openTable, []⟩
    hApplied harmlessInputs hSteps k tables hBetween fam (samplePacket 23) rfl

/-- New grants, without any fault: a packet that neither the old nor the new policy permits
reaches the rules of the host in between. -/
theorem rebuild_opens_host :
    sampleSystem.result = none ∧
      ((sampleSystem.step sampleHost ⟨.setPortGrants [sampleGrant [22]], Faults.none⟩).result = none) ∧
      permitted sampleHost .v4 (samplePacket 23) sampleConfig [] = false ∧
      permitted sampleHost .v4 (samplePacket 23) sampleConfig [sampleGrant [22]] = false ∧
      ∃ tables ∈
          (sampleSystem.step sampleHost ⟨.setPortGrants [sampleGrant [22]], Faults.none⟩).visited,
        ReachesHost sampleHost sampleConfig .v4 (tables .v4) .input (samplePacket 23) := by
  have hReaches : ∃ tables ∈
      (sampleSystem.step sampleHost ⟨.setPortGrants [sampleGrant [22]], Faults.none⟩).visited,
        walk (Match.holds sampleHost .v4)
          ((tables .v4).traverse (Match.holds sampleHost .v4) (samplePacket 23) 1) (samplePacket 23)
          (((tables .v4).rules (.builtin .input)).takeWhile (ownJump sampleConfig)) =
            some .returned := by decide +kernel
  obtain ⟨tables, hMem, hWalk⟩ := hReaches
  exact ⟨by decide +kernel, by decide +kernel, by decide +kernel, by decide +kernel, tables, hMem, 1,
    hWalk⟩

end Sample

end Firewall
