import AtreoAgent.Machine.Run
import AtreoAgent.Tunnel.Cases
import AtreoAgent.Tunnel.CustomDomain
import AtreoAgent.Tunnel.Sample

/-! Which custom domain is served over a run. An applied device state adds its zone to the
registered suffixes, keeps it, or clears the zone of the row. When one zone directly
replaces another, the suffix of the old one stays. -/
namespace Tunnel

open Codec Json Atreolink Machine

/-- The zone a device state names, if it has a custom domain. -/
def zoneOf (lower : Char → Char) (st : DeviceState) : Option String :=
  st.customDomain.bind fun cd =>
    (PayloadType.customDomainSet.unmarshal cd.envelope.payload).map fun p =>
      normaliseZone lower p.parentZone

/-- Everything that is asked for succeeds; a certificate that is issued loads. -/
structure DomainOps.Succeeds (letters : Certs.Letters) (ops : DomainOps) : Prop where
  removed : ops.removed = true
  readable : ops.readable = true
  written : ops.written = true
  cleared : ops.cleared = true
  mkdir : ∀ host, ops.tick.mkdir host = true
  issued : ∀ host files, (ops.tick.issueCert host files).1 = true ∧
    ((ops.tick.issueCert host files).2.load letters host).isSome = true

namespace Domains

/-- The suffixes are the apps hostname and the zone, and the row names the zone. -/
structure Serves (apps : String) (zone : Option String) (d : Domains) : Prop where
  suffixes : ∀ s, s ∈ d.certManager.registry.suffixes ↔ s = apps ∨ zone = some s
  row : (d.customDomainStore.get true).map (·.map CustomDomain.parentZone) = some zone

variable {letters : Certs.Letters} {apps : String} {old : Option String} {d : Domains}
  {ops : DomainOps}

theorem Serves.existing (h : d.Serves apps old) (hOps : ops.Succeeds letters) :
    (d.existing ops).map CustomDomain.parentZone = old := by
  obtain ⟨row, hRow, hZone⟩ := Option.map_eq_some_iff.mp h.row
  rw [Domains.existing, hOps.readable, hRow]
  exact hZone

/-- A row that is read names a zone. -/
theorem parentZone_ne_empty {row : CustomDomain} (h : d.existing ops = some row) :
    row.parentZone ≠ "" := by
  unfold Domains.existing DomainFile.get at h
  split at h
  · cases h
  · cases h
  · split at h
    · rw [Option.getD_some] at h
      split at h
      · cases h
      next hZone => exact Option.some.inj h ▸ hZone
    · cases h

/-- Clearing takes the zone of the row out of the registry, but not the apps hostname. -/
theorem Serves.clear (h : d.Serves apps old) (hOps : ops.Succeeds letters)
    (hNormal : ∀ z ∈ old, Certs.normaliseHost letters.lower z = z) (hApps : old ≠ some apps) :
    (d.clearCustomDomain letters.lower ops).Serves apps none := by
  have hZone := h.existing hOps
  unfold clearCustomDomain
  cases hRow : d.existing ops with
  | none =>
      rw [hRow] at hZone
      subst hZone
      exact h
  | some row =>
      rw [hRow] at hZone
      subst hZone
      have hHost := hNormal _ rfl
      dsimp only
      rw [Certs.Registry.removeSuffix, hHost, if_neg (parentZone_ne_empty hRow), hOps.cleared]
      refine ⟨fun s => ?_, rfl⟩
      have hOld := h.suffixes s
      rw [Certs.Registry.mem_suffixes] at hOld ⊢
      dsimp only
      rw [AList.mem_erase, hOld]
      grind

/-- A zone that stays, or is the first one beside the apps hostname. -/
theorem Serves.set {zone : String} {envelope : DSEnvelope} (h : d.Serves apps old)
    (hOps : ops.Succeeds letters) (hSome : zone ≠ "")
    (hChange : old = some zone ∨
      (old = none ∨ old = some apps) ∧ Certs.normaliseHost letters.lower zone = zone) :
    (d.setCustomDomain letters ops zone envelope).Serves apps (some zone) := by
  have hExisting : (d.existing ops).any (·.parentZone = zone) = true ↔ old = some zone := by
    rw [← h.existing hOps]
    cases d.existing ops <;> simp
  unfold setCustomDomain
  by_cases hSame : old = some zone
  · rw [if_pos (hExisting.mpr hSame)]
    exact hSame ▸ h
  · obtain ⟨hOld, hNormal⟩ := hChange.resolve_left hSame
    obtain ⟨hOk, leaf, hRegistry⟩ := Certs.Manager.ensureCert_of_issued hNormal hSome
      (hOps.mkdir zone) (hOps.issued zone (d.certManager.disk zone)).2
    rw [if_neg (hExisting.not.mpr hSame)]
    dsimp only
    rw [if_pos hOk, DomainFile.set, if_neg hSome, hOps.written]
    refine ⟨fun s => ?_, ?_⟩
    · have hBefore := h.suffixes s
      rw [Certs.Registry.mem_suffixes] at hBefore ⊢
      rw [hRegistry, AList.mem_insert, hBefore]
      grind
    · simp [DomainFile.get, hSome]

end Domains

/-- The changes of the zone that leave the registry in step: clearing a zone that is not the
apps hostname, keeping it, and setting one where there was none. -/
def ZoneChange (lower : Char → Char) (apps : String) (old : Option String) :
    Option String → Prop
  | none => old ≠ some apps
  | some zone => old = some zone ∨
      (old = none ∨ old = some apps) ∧ Certs.normaliseHost lower zone = zone

/-- The agent with the certificates it serves. -/
structure Serving where
  agent : Agent
  domains : Domains

structure ServingInput where
  input : Input
  ops : DomainOps

namespace Serving

variable (letters : Certs.Letters) (env : Env)

/-- The custom domain of an applied device state is reconciled with the pinned key. -/
def step (s : Serving) (i : ServingInput) : Serving :=
  let agent := s.agent.step env i.input
  match s.agent.appliedState env i.input, s.agent.store.pinnedAdminPubKey with
  | some st, some ownerPub =>
      ⟨agent, s.domains.reconcileCustomDomain letters env agent.store ownerPub i.ops
        st.customDomain⟩
  | _, _ => ⟨agent, s.domains⟩

/-- The zone of the row. -/
def zone (s : Serving) : Option String :=
  ((s.domains.customDomainStore.get true).getD none).map (·.parentZone)

/-- A custom domain that comes with an applied device state is signed by the owner. -/
def OwnerSigned (s : Serving) (i : ServingInput) : Prop :=
  ∀ st ∈ s.agent.appliedState env i.input, ∀ cd ∈ st.customDomain,
    ∃ ownerPub ∈ s.agent.store.pinnedAdminPubKey,
      (verifyCustomDomain letters.lower env s.agent.store ownerPub cd.envelope).isSome = true

def ChangesZone (apps : String) (s : Serving) (i : ServingInput) : Prop :=
  ∀ st ∈ s.agent.appliedState env i.input,
    ZoneChange letters.lower apps s.zone (zoneOf letters.lower st)

variable {letters env} {apps : String} {s : Serving} {i : ServingInput}

theorem zone_of_serves {old : Option String} (h : s.domains.Serves apps old) : s.zone = old := by
  obtain ⟨row, hRow, hZone⟩ := Option.map_eq_some_iff.mp h.row
  rw [zone, hRow]
  exact hZone

/-- The state of a run: the zone of the row is served, in the form the registry has it. -/
def Settled (letters : Certs.Letters) (apps : String) (s : Serving) : Prop :=
  s.domains.Serves apps s.zone ∧ ∀ z ∈ s.zone, Certs.normaliseHost letters.lower z = z

/-- An applied device state leaves its own zone served. -/
theorem serves_step {st : DeviceState} (h : s.Settled letters apps)
    (hOps : i.ops.Succeeds letters) (hSigned : s.OwnerSigned letters env i)
    (hChange : s.ChangesZone letters env apps i)
    (hApplied : s.agent.appliedState env i.input = some st) :
    (s.step letters env i).domains.Serves apps (zoneOf letters.lower st) ∧
      ∀ z ∈ zoneOf letters.lower st, Certs.normaliseHost letters.lower z = z := by
  obtain ⟨msg, _, a, rfl, _⟩ := exists_accepted hApplied
  have hStep : (s.step letters env i).domains =
      s.domains.reconcileCustomDomain letters env (s.agent.step env i.input).store a.ownerPub i.ops
        a.st.customDomain := by
    rw [step, hApplied, a.pinned]
  have hZone := hChange a.st hApplied
  rw [hStep]
  cases hDomain : a.st.customDomain with
  | none =>
      have hNone : zoneOf letters.lower a.st = none := by
        rw [zoneOf, hDomain, Option.bind_none]
      rw [hNone] at hZone ⊢
      rw [Domains.reconcileCustomDomain]
      exact ⟨h.1.clear hOps h.2 hZone, fun z hz => absurd hz (Option.not_mem_none z)⟩
  | some cd =>
      obtain ⟨ownerPub, hPin, hVerify⟩ := hSigned a.st hApplied cd hDomain
      cases a.pinned.symm.trans hPin
      obtain ⟨zone, hZoned⟩ := Option.isSome_iff_exists.mp hVerify
      obtain ⟨p, hPayload, hName, hSome, _⟩ := verifyCustomDomain_eq_some hZoned
      have hOwn : zoneOf letters.lower a.st = some zone := by
        rw [zoneOf, hDomain, Option.bind_some, hPayload, hName, Option.map_some]
      rw [hOwn] at hZone ⊢
      rw [Domains.reconcileCustomDomain, verifyCustomDomain_store _ _ _ s.agent.store, hZoned]
      refine ⟨h.1.set hOps hSome hZone, ?_⟩
      intro z hz
      obtain rfl := Option.some.inj hz
      rcases hZone with hSame | ⟨_, hNormal⟩
      · exact h.2 zone hSame
      · exact hNormal

theorem settled_step (h : s.Settled letters apps) (hOps : i.ops.Succeeds letters)
    (hSigned : s.OwnerSigned letters env i) (hChange : s.ChangesZone letters env apps i) :
    (s.step letters env i).Settled letters apps := by
  cases hApplied : s.agent.appliedState env i.input with
  | none =>
      have hSame : (s.step letters env i).domains = s.domains := by
        rw [step, hApplied]
      unfold Settled zone
      rw [hSame]
      exact h
  | some st =>
      obtain ⟨hServes, hNormal⟩ := serves_step h hOps hSigned hChange hApplied
      have hZone := zone_of_serves hServes
      exact ⟨hZone ▸ hServes, hZone ▸ hNormal⟩

/-- In every run whose zones change as the registry can follow, every applied device state is
followed by serving the apps hostname and its own zone, and the row names that zone. -/
theorem only_current_zone_served {start : Serving} {inputs : List ServingInput}
    (hStart : start.domains.Serves apps none)
    (hRun : Meets (step letters env)
      (fun s i => i.ops.Succeeds letters ∧ s.OwnerSigned letters env i ∧
        s.ChangesZone letters env apps i) start inputs)
    {n : Nat} {i : ServingInput} {st : DeviceState} (hInput : inputs[n]? = some i)
    (hApplied : (run (step letters env) start (inputs.take n)).agent.appliedState env
      i.input = some st) :
    (run (step letters env) start (inputs.take (n + 1))).domains.Serves apps
      (zoneOf letters.lower st) := by
  have hInit : start.Settled letters apps := by
    have hZone := zone_of_serves hStart
    refine ⟨hZone.symm ▸ hStart, fun z hz => ?_⟩
    rw [hZone] at hz
    exact absurd hz (Option.not_mem_none z)
  have hSettled := invariant_run (Settled letters apps)
    (fun _ _ h hMeets => settled_step h hMeets.1 hMeets.2.1 hMeets.2.2) hInit (hRun.take n)
  obtain ⟨hOps, hSigned, hChange⟩ := hRun.getElem hInput
  rw [run_take_succ hInput]
  exact (serves_step hSettled hOps hSigned hChange hApplied).1

end Serving

/-- A state with a custom domain the owner has signed. -/
def domainState (generation : Int) (zone : Option String) : DeviceState :=
  { deviceID := "d", generation := generation, members := [], apps := []
    customDomain := zone.map fun zone => ⟨sampleEnvelope (sampleKey 1) "a" (.obj [
      ("intent", .str ("custom-domain-set-d-" ++ zone)), ("parentZone", .str zone)])⟩ }

def firstZone : DeviceState := domainState 1 (some "x.example")

def secondZone : DeviceState := domainState 2 (some "y.example")

def noZone : DeviceState := domainState 2 none

def zoneEnv : Env := sampleEnv [firstZone, secondZone, noZone]

/-- Certificates are issued for ninety days. -/
def succeedingOps : DomainOps :=
  { tick :=
      { now := 0
        mkdir := fun _ => true
        issueCert := fun host _ => (true, ⟨some ⟨90 * 24 * Certs.hour, [host], ""⟩, true⟩) }
    removed := true, readable := true, written := true, cleared := true, verifiedAt := "" }

theorem succeedingOps_succeeds : succeedingOps.Succeeds .ascii where
  removed := rfl
  readable := rfl
  written := rfl
  cleared := rfl
  mkdir _ := rfl
  issued host files := by
    simp [succeedingOps, Certs.Files.load, Certs.Leaf.matchesSuffix]

/-- Paired, with the apps hostname registered. -/
def zoneStart : Serving :=
  { agent := sampleAgent zoneEnv
    domains :=
      { certManager :=
          { registry := ⟨AList.singleton "apps.example" {}⟩, disk := fun _ => {}
            renewalState := ∅, notifier := false, calls := [] }
        customDomainStore := .missing } }

theorem zoneStart_serves : zoneStart.domains.Serves "apps.example" none := by
  refine ⟨fun s => ?_, rfl⟩
  rw [Certs.Registry.mem_suffixes, AList.mem_keys]
  simp [zoneStart]

def zoneInput (st : DeviceState) : ServingInput :=
  ⟨.succeeding 0 (.deviceState (sampleState st)), succeedingOps⟩

theorem reads_first : Reads [firstZone, secondZone, noZone] firstZone := reads_head _ _

theorem reads_second : Reads [firstZone, secondZone, noZone] secondZone :=
  reads_cons (by decide +kernel) (reads_head _ _)

theorem reads_none : Reads [firstZone, secondZone, noZone] noZone :=
  reads_cons (by decide +kernel) (reads_cons (by decide +kernel) (reads_head _ _))

/-- The agent once a state is applied. -/
def zoneApplied (agent : Agent) (st : DeviceState) : Agent × DeviceStateResult :=
  completeApply zoneEnv (fun _ => true) (agent.beginState zoneEnv 0 st)

section Samples

variable {agent : Agent} {domains : Domains} {st : DeviceState}

theorem step_zoneInput (hReads : Reads [firstZone, secondZone, noZone] st)
    (hPin : agent.store.pinnedAdminPubKey = some (sampleKey 1))
    (hApplied : (zoneApplied agent st).2.isApplied = true) :
    (Serving.mk agent domains).step .ascii zoneEnv (zoneInput st) =
      ⟨(zoneApplied agent st).1, domains.reconcileCustomDomain .ascii zoneEnv
        (zoneApplied agent st).1.store (sampleKey 1) succeedingOps st.customDomain⟩ := by
  have hState : agent.appliedState zoneEnv (zoneInput st).input = some st :=
    appliedState_sample hReads hApplied
  have hStep : agent.step zoneEnv (zoneInput st).input = (zoneApplied agent st).1 :=
    step_sampleState hReads 0 agent
  rw [Serving.step, hState, hPin, hStep]
  rfl

theorem ownerSigned_zoneInput (hReads : Reads [firstZone, secondZone, noZone] st)
    (hPin : agent.store.pinnedAdminPubKey = some (sampleKey 1))
    (hApplied : (zoneApplied agent st).2.isApplied = true)
    (hSigned : ∀ cd ∈ st.customDomain,
      (verifyCustomDomain Char.toLower zoneEnv Acl.Store.new (sampleKey 1)
        cd.envelope).isSome = true) :
    (Serving.mk agent domains).OwnerSigned .ascii zoneEnv (zoneInput st) := by
  have hState : agent.appliedState zoneEnv (zoneInput st).input = some st :=
    appliedState_sample hReads hApplied
  intro st' hMem cd hCd
  obtain rfl : st = st' := Option.some.inj (hState.symm.trans hMem)
  exact ⟨sampleKey 1, hPin, hSigned cd hCd⟩

end Samples

/-- What the agent has after the first state. -/
def zoneAgent : Agent := (zoneApplied zoneStart.agent firstZone).1

def zoneDomains : Domains :=
  zoneStart.domains.reconcileCustomDomain .ascii zoneEnv zoneAgent.store (sampleKey 1)
    succeedingOps firstZone.customDomain

theorem firstZone_values :
    zoneStart.agent.store.pinnedAdminPubKey = some (sampleKey 1) ∧
      (zoneApplied zoneStart.agent firstZone).2.isApplied = true ∧
      (∀ cd ∈ firstZone.customDomain,
        (verifyCustomDomain Char.toLower zoneEnv Acl.Store.new (sampleKey 1)
          cd.envelope).isSome = true) ∧
      zoneAgent.store.pinnedAdminPubKey = some (sampleKey 1) := by
  decide +kernel

theorem step_firstZone :
    zoneStart.step .ascii zoneEnv (zoneInput firstZone) = ⟨zoneAgent, zoneDomains⟩ :=
  step_zoneInput reads_first firstZone_values.1 firstZone_values.2.1

theorem ownerSigned_firstZone :
    zoneStart.OwnerSigned .ascii zoneEnv (zoneInput firstZone) :=
  ownerSigned_zoneInput reads_first firstZone_values.1 firstZone_values.2.1 firstZone_values.2.2.1

/-- The owner replaces one zone by another. Both device states are applied, and the certificate
of the first zone stays in the registry. -/
theorem replaced_zone_still_served :
    zoneStart.domains.Serves "apps.example" none ∧
      (zoneInput firstZone).ops.Succeeds .ascii ∧
      (zoneInput secondZone).ops.Succeeds .ascii ∧
      Meets (Serving.step .ascii zoneEnv) (Serving.OwnerSigned .ascii zoneEnv)
        zoneStart [zoneInput firstZone, zoneInput secondZone] ∧
      zoneOf Char.toLower secondZone = some "y.example" ∧
      (run (Serving.step .ascii zoneEnv) zoneStart
        [zoneInput firstZone, zoneInput secondZone]).domains.certManager.registry.suffixes =
          ["apps.example", "x.example", "y.example"] := by
  have hValues : (zoneApplied zoneAgent secondZone).2.isApplied = true ∧
      (∀ cd ∈ secondZone.customDomain,
        (verifyCustomDomain Char.toLower zoneEnv Acl.Store.new (sampleKey 1)
          cd.envelope).isSome = true) ∧
      zoneOf Char.toLower secondZone = some "y.example" ∧
      (zoneDomains.reconcileCustomDomain .ascii zoneEnv
        (zoneApplied zoneAgent secondZone).1.store (sampleKey 1) succeedingOps
          secondZone.customDomain).certManager.registry.suffixes =
            ["apps.example", "x.example", "y.example"] := by
    decide +kernel
  obtain ⟨hApplied, hSigned, hZone, hSuffixes⟩ := hValues
  have hPin := firstZone_values.2.2.2
  refine ⟨zoneStart_serves, succeedingOps_succeeds, succeedingOps_succeeds,
    ⟨ownerSigned_firstZone, ?_, trivial⟩, hZone, ?_⟩
  · rw [step_firstZone]
    exact ownerSigned_zoneInput reads_second hPin hApplied hSigned
  · rw [run_cons, step_firstZone, run_cons, run_nil,
      step_zoneInput reads_second hPin hApplied]
    dsimp only
    exact hSuffixes

/-- A zone is set and then cleared. -/
theorem cleared_zone_not_served :
    (run (Serving.step .ascii zoneEnv) zoneStart
        [zoneInput firstZone]).domains.Serves "apps.example" (some "x.example") ∧
      (run (Serving.step .ascii zoneEnv) zoneStart
        [zoneInput firstZone, zoneInput noZone]).domains.Serves "apps.example" none := by
  have hValues : (zoneApplied zoneAgent noZone).2.isApplied = true ∧
      zoneOf Certs.Letters.ascii.lower firstZone = some "x.example" ∧
      zoneOf Certs.Letters.ascii.lower noZone = none ∧
      (Serving.mk zoneAgent zoneDomains).zone = some "x.example" ∧
      Certs.normaliseHost Certs.Letters.ascii.lower "x.example" = "x.example" := by
    decide +kernel
  obtain ⟨hApplied, hZone, hNone, hRow, hNormal⟩ := hValues
  have hFirst : zoneStart.agent.appliedState zoneEnv (zoneInput firstZone).input =
      some firstZone := appliedState_sample reads_first firstZone_values.2.1
  have hSecond : zoneAgent.appliedState zoneEnv (zoneInput noZone).input = some noZone :=
    appliedState_sample reads_none hApplied
  have hRun : Meets (Serving.step .ascii zoneEnv)
      (fun s i => i.ops.Succeeds .ascii ∧ s.OwnerSigned .ascii zoneEnv i ∧
        s.ChangesZone .ascii zoneEnv "apps.example" i)
      zoneStart [zoneInput firstZone, zoneInput noZone] := by
    refine ⟨⟨succeedingOps_succeeds, ownerSigned_firstZone, ?_⟩,
      ⟨succeedingOps_succeeds, ?_, ?_⟩, trivial⟩
    · intro st hst
      obtain rfl : firstZone = st := Option.some.inj (hFirst.symm.trans hst)
      rw [hZone]
      exact .inr ⟨.inl rfl, hNormal⟩
    · rw [step_firstZone]
      exact ownerSigned_zoneInput reads_none firstZone_values.2.2.2 hApplied
        fun cd hCd => absurd hCd (Option.not_mem_none cd)
    · rw [step_firstZone]
      intro st hst
      obtain rfl : noZone = st := Option.some.inj (hSecond.symm.trans hst)
      rw [hNone, hRow, ZoneChange]
      decide
  have hThen : (run (Serving.step .ascii zoneEnv) zoneStart
      [zoneInput firstZone]).agent.appliedState zoneEnv (zoneInput noZone).input =
        some noZone := by
    rw [run_cons, run_nil, step_firstZone]
    exact hSecond
  have hSet := Serving.only_current_zone_served zoneStart_serves hRun (n := 0) rfl hFirst
  have hCleared := Serving.only_current_zone_served zoneStart_serves hRun (n := 1) rfl hThen
  rw [hZone] at hSet
  rw [hNone] at hCleared
  exact ⟨hSet, hCleared⟩

end Tunnel
