import AtreoAgent.Machine.Table
import AtreoAgent.Relay.Shim

/-! The tunnels of the shim over any interleaving of its goroutines. A socket that was
dialled is in the map, taken out and waiting to be closed, or closed; it is closed once,
since only the goroutine that took it out of the map closes it. Nothing takes a tunnel
out of the map when its pump stops. -/
namespace Relay

open Codec Machine

/-- The tunnels that the frame loop still has to close. -/
def Loop.toClose : Loop → List ConnID
  | closing conns _ => conns
  | _ => []

namespace Shim

/-- Tunnels that are out of the map and not closed yet. -/
def teardown (s : Shim) : List ConnID := s.loop.toClose ++ s.expired

def Mapped (s : Shim) (c : ConnID) : Prop := ∃ id, s.tunnels.lookup id = some c

/-- Each socket has its place. -/
structure Sound (s : Shim) : Prop where
  capacity : s.tunnels.keys.length ≤ maxTunnels
  mapped : ∀ id c, s.tunnels.lookup id = some c →
    c < s.dialled ∧ (s.conns c).tunnelID = id ∧ c ∉ s.teardown
  pending : s.teardown.Nodup ∧ ∀ c ∈ s.teardown, c < s.dialled
  unclosed : ∀ c, s.Mapped c ∨ c ∈ s.teardown → (s.conns c).closes = 0 ∧ (s.conns c).once = false
  closed : ∀ c < s.dialled, ¬ s.Mapped c → c ∉ s.teardown → (s.conns c).closes = 1

variable {s t : Shim} {c : ConnID} {e : Event}

theorem Sound.injective (h : s.Sound) : Table.Injective s.tunnels := by
  intro a b c ha hb
  rw [← (h.mapped a c ha).2.1, (h.mapped b c hb).2.1]

/-- Whose a socket is and how often it was closed. -/
def SameSocket (a b : TunnelConn) : Prop :=
  b.tunnelID = a.tunnelID ∧ b.closes = a.closes ∧ b.once = a.once

/-- What a step may do to the map and the sockets. -/
inductive Change (s t : Shim) : Prop where
  | kept (tunnels : t.tunnels = s.tunnels) (dialled : t.dialled = s.dialled)
      (teardown : t.teardown = s.teardown) (conns : ∀ c, SameSocket (s.conns c) (t.conns c))
  | created {id : UInt64} {now : Int} (absent : s.tunnels.lookup id = none)
      (room : s.tunnels.keys.length < maxTunnels)
      (tunnels : t.tunnels = s.tunnels.insert id s.dialled) (dialled : t.dialled = s.dialled + 1)
      (teardown : t.teardown = s.teardown)
      (conns : t.conns = (s.update s.dialled fun _ => .new id now).conns)
  | removed (cs : List ConnID) (distinct : cs.Nodup) (mapped : ∀ c ∈ cs, s.Mapped c)
      (lookup : ∀ id c, t.tunnels.lookup id = some c ↔ s.tunnels.lookup id = some c ∧ c ∉ cs)
      (length : t.tunnels.keys.length ≤ s.tunnels.keys.length) (dialled : t.dialled = s.dialled)
      (teardown : t.teardown.Perm (cs ++ s.teardown)) (conns : t.conns = s.conns)
  | closed (c : ConnID) (tunnels : t.tunnels = s.tunnels) (dialled : t.dialled = s.dialled)
      (teardown : s.teardown.Perm (c :: t.teardown))
      (conns : t.conns = (s.update c TunnelConn.close).conns)

theorem SameSocket.refl (a : TunnelConn) : SameSocket a a := ⟨rfl, rfl, rfl⟩

/-- A step that only moves the frame loop. -/
theorem Change.of_loop (tunnels : t.tunnels = s.tunnels) (dialled : t.dialled = s.dialled)
    (toClose : t.loop.toClose = s.loop.toClose) (expired : t.expired = s.expired)
    (conns : t.conns = s.conns) : Change s t := by
  refine .kept tunnels dialled ?_ fun c => ?_
  · rw [teardown, teardown, toClose, expired]
  · rw [conns]
    exact .refl _

/-- A step that moves a pump, or notes that its tunnel is active. -/
theorem Change.of_update {f : TunnelConn → TunnelConn} (conns : t.conns = (s.update c f).conns)
    (h : ∀ tc, SameSocket tc (f tc)) (tunnels : t.tunnels = s.tunnels)
    (dialled : t.dialled = s.dialled) (teardown : t.teardown = s.teardown) : Change s t := by
  refine .kept tunnels dialled teardown fun d => ?_
  rw [conns]
  by_cases hd : d = c
  · subst hd
    rw [update_self]
    exact h _
  · rw [update_of_ne hd]
    exact .refl _

theorem change_toWireGuard (hLoop : s.loop = .reading) (now : Int) (dial : Bool) (id : UInt64)
    (payload : Bytes) : Change s (s.toWireGuard now dial id payload) := by
  have hClose : s.loop.toClose = [] := by rw [hLoop]; rfl
  unfold toWireGuard
  cases hLookup : s.tunnels.lookup id with
  | some c =>
      refine .of_update (c := c) (f := ({ · with lastActive := now })) rfl
        (fun tc => ⟨rfl, rfl, rfl⟩) rfl rfl ?_
      rw [teardown, teardown, hClose]
      rfl
  | none =>
      dsimp only
      split_ifs with hFull hDial
      · exact .of_loop rfl rfl hClose.symm rfl rfl
      · refine .created hLookup (Nat.not_le.mp hFull) rfl rfl ?_ rfl
        rw [teardown, teardown, hClose]
        rfl
      · exact .of_loop rfl rfl hClose.symm rfl rfl

theorem change_closeTunnel (hs : s.Sound) (hLoop : s.loop = .reading) (id : UInt64) :
    Change s (s.closeTunnel id) := by
  have hClose : s.loop.toClose = [] := by rw [hLoop]; rfl
  unfold closeTunnel
  cases hLookup : s.tunnels.lookup id with
  | none => exact .of_loop rfl rfl hClose.symm rfl rfl
  | some c =>
      refine .removed [c] (List.nodup_singleton c) ?_ ?_ ?_ rfl ?_ rfl
      · intro d hd
        obtain rfl := List.mem_singleton.mp hd
        exact ⟨id, hLookup⟩
      · intro other d
        rw [List.mem_singleton]
        by_cases hOther : other = id
        · subst hOther
          simp [hLookup, eq_comm]
        · rw [AList.lookup_erase_ne hOther]
          refine (and_iff_left_of_imp fun hMapped hEq => hOther ?_).symm
          subst hEq
          exact hs.injective other id d hMapped hLookup
      · exact Table.length_foldl_erase_le [id] s.tunnels
      · rw [teardown, teardown, hClose]
        exact .refl _

theorem change_closeAll (hs : s.Sound) (hClose : s.loop.toClose = []) : Change s s.closeAll := by
  obtain ⟨hDistinct, hMapped, -⟩ := hs.injective.erase_filter fun _ => true
  rw [List.filter_true] at hDistinct hMapped
  refine .removed (s.tunnels.entries.map (·.2)) hDistinct hMapped ?_ (Nat.zero_le _) rfl ?_ rfl
  · intro id c
    constructor
    · intro h
      cases h
    · rintro ⟨hLookup, hOut⟩
      have hEntry : Sigma.mk id c ∈ s.tunnels.entries := AList.mem_lookup_iff.mp hLookup
      exact absurd (List.mem_map.mpr ⟨_, hEntry, rfl⟩) hOut
  · rw [teardown, teardown, hClose]
    exact .refl _

theorem change_reapOnce (hs : s.Sound) (hExpired : s.expired = []) (now : Int) :
    Change s (s.reapOnce now) := by
  obtain ⟨hDistinct, hMapped, hLookup⟩ := hs.injective.erase_filter fun e =>
    (s.conns e.2).lastActive < now - tunnelIdleTimeout
  refine .removed _ hDistinct hMapped hLookup ?_ rfl ?_ rfl
  · have hLength := Table.length_foldl_erase_le ((s.expiredAt now).map (·.1)) s.tunnels
    rwa [List.foldl_map] at hLength
  · rw [teardown, teardown, hExpired, List.append_nil]
    exact List.perm_append_comm

theorem change_proceed (s : Shim) : Change s s.proceed := by
  unfold proceed
  split
  next hLoop => exact .of_loop rfl rfl (by rw [hLoop]; rfl) rfl rfl
  next c cs last hLoop =>
    refine .closed c rfl rfl ?_ rfl
    rw [teardown, hLoop]
    exact .refl _
  next last hLoop => exact .of_loop rfl rfl (by rw [hLoop]; cases last <;> rfl) rfl rfl
  next => exact .of_loop rfl rfl rfl rfl rfl

/-- Every step is one of the four changes. -/
theorem change_step (hs : s.Sound) (e : Event) : Change s (s.step e) := by
  have hSame : Change s s := .of_loop rfl rfl rfl rfl rfl
  cases e with
  | bind ok =>
      rw [step]
      split
      next hLoop =>
        have hClose : s.loop.toClose = [] := by rw [hLoop]; rfl
        cases ok <;> exact .of_loop rfl rfl hClose.symm rfl rfl
      next => exact hSame
  | cancel => exact .of_loop rfl rfl rfl rfl rfl
  | check =>
      rw [step]
      split
      next hLoop =>
        have hClose : s.loop.toClose = [] := by rw [hLoop]; rfl
        split
        · exact change_closeAll hs hClose
        · exact .of_loop rfl rfl hClose.symm rfl rfl
      next => exact hSame
  | datagram now bytes dial =>
      rw [step]
      split
      next hLoop =>
        have hClose : s.loop.toClose = [] := by rw [hLoop]; rfl
        unfold receive
        split
        next => exact .of_loop rfl rfl hClose.symm rfl rfl
        next =>
          split_ifs
          · exact change_toWireGuard hLoop now dial _ _
          · exact change_closeTunnel hs hLoop _
          · exact .of_loop rfl rfl hClose.symm rfl rfl
      next => exact hSame
  | readError =>
      rw [step]
      split
      next hLoop => exact change_closeAll hs (by rw [hLoop]; rfl)
      next => exact hSame
  | proceed => exact change_proceed s
  | tick now =>
      rw [step]
      split
      next hExpired => exact change_reapOnce hs hExpired now
      next => exact hSame
  | reap =>
      rw [step]
      split
      next => exact hSame
      next c cs hExpired =>
        refine .closed c rfl rfl ?_ rfl
        rw [teardown, hExpired]
        exact List.perm_middle
  | pumpCheck c =>
      rw [step]
      split
      · exact .of_update rfl (fun tc => ⟨rfl, rfl, rfl⟩) rfl rfl rfl
      · exact hSame
  | reply c now bytes =>
      rw [step]
      split
      · exact .of_update rfl (fun tc => ⟨rfl, rfl, rfl⟩) rfl rfl rfl
      · exact hSame
  | replyError c =>
      rw [step]
      split
      · exact .of_update rfl (fun tc => ⟨rfl, rfl, rfl⟩) rfl rfl rfl
      · exact hSame
  | forward c ok =>
      rw [step]
      split
      · split
        · exact .of_update (c := c) (f := ({ · with pump := .checking })) rfl
            (fun tc => ⟨rfl, rfl, rfl⟩) rfl rfl rfl
        · exact .of_update rfl (fun tc => ⟨rfl, rfl, rfl⟩) rfl rfl rfl
      · exact hSame
  | keepalive ok =>
      rw [step]
      split
      · cases ok <;> exact .of_loop rfl rfl rfl rfl rfl
      · exact hSame

theorem sound_kept (hs : s.Sound) (tunnels : t.tunnels = s.tunnels)
    (dialled : t.dialled = s.dialled) (teardown : t.teardown = s.teardown)
    (conns : ∀ c, SameSocket (s.conns c) (t.conns c)) : t.Sound := by
  have hMapped : ∀ c, t.Mapped c ↔ s.Mapped c := fun c => by rw [Mapped, Mapped, tunnels]
  refine ⟨tunnels ▸ hs.capacity, ?_, ?_, ?_, ?_⟩
  · intro id c h
    rw [tunnels] at h
    rw [dialled, teardown, (conns c).1]
    exact hs.mapped id c h
  · rw [teardown, dialled]
    exact hs.pending
  · intro c h
    rw [hMapped, teardown] at h
    rw [(conns c).2.1, (conns c).2.2]
    exact hs.unclosed c h
  · intro c hc hOut hPending
    rw [dialled] at hc
    rw [hMapped] at hOut
    rw [teardown] at hPending
    rw [(conns c).2.1]
    exact hs.closed c hc hOut hPending

theorem sound_created (hs : s.Sound) {id : UInt64} {now : Int}
    (absent : s.tunnels.lookup id = none) (room : s.tunnels.keys.length < maxTunnels)
    (tunnels : t.tunnels = s.tunnels.insert id s.dialled) (dialled : t.dialled = s.dialled + 1)
    (teardown : t.teardown = s.teardown)
    (conns : t.conns = (s.update s.dialled fun _ => .new id now).conns) : t.Sound := by
  have hNew : t.conns s.dialled = .new id now := by rw [conns, update_self]
  have hOld : ∀ c, c < s.dialled → t.conns c = s.conns c := by
    intro c hc
    rw [conns, update_of_ne (Nat.ne_of_lt hc)]
  have hLookup : ∀ other c, t.tunnels.lookup other = some c ↔
      (other = id ∧ c = s.dialled) ∨ s.tunnels.lookup other = some c := by
    intro other c
    rw [tunnels]
    by_cases hOther : other = id
    · subst hOther
      simp [absent, eq_comm]
    · simp [AList.lookup_insert_ne hOther, hOther]
  refine ⟨?_, ?_, ?_, ?_, ?_⟩
  · rw [tunnels, Table.length_insert_of_lookup_eq_none absent]
    exact room
  · intro other c h
    rw [dialled, teardown]
    rcases (hLookup other c).mp h with ⟨rfl, rfl⟩ | h
    · refine ⟨Nat.lt_succ_self _, by rw [hNew]; rfl, fun hPending => ?_⟩
      exact Nat.lt_irrefl _ (hs.pending.2 _ hPending)
    · obtain ⟨hc, hID, hPending⟩ := hs.mapped other c h
      exact ⟨Nat.lt_succ_of_lt hc, by rw [hOld c hc]; exact hID, hPending⟩
  · rw [teardown, dialled]
    exact ⟨hs.pending.1, fun c hc => Nat.lt_succ_of_lt (hs.pending.2 c hc)⟩
  · rintro c (⟨other, h⟩ | hPending)
    · rcases (hLookup other c).mp h with ⟨rfl, rfl⟩ | h
      · rw [hNew]
        exact ⟨rfl, rfl⟩
      · rw [hOld c (hs.mapped other c h).1]
        exact hs.unclosed c (Or.inl ⟨other, h⟩)
    · rw [teardown] at hPending
      rw [hOld c (hs.pending.2 c hPending)]
      exact hs.unclosed c (Or.inr hPending)
  · intro c hc hOut hPending
    rw [dialled] at hc
    rw [teardown] at hPending
    rcases Nat.lt_succ_iff_lt_or_eq.mp hc with hc | rfl
    · rw [hOld c hc]
      refine hs.closed c hc (fun hMapped => hOut ?_) hPending
      obtain ⟨other, h⟩ := hMapped
      exact ⟨other, (hLookup other c).mpr (Or.inr h)⟩
    · exact absurd ⟨id, (hLookup id _).mpr (Or.inl ⟨rfl, rfl⟩)⟩ hOut

theorem sound_removed (hs : s.Sound) {cs : List ConnID} (distinct : cs.Nodup)
    (mapped : ∀ c ∈ cs, s.Mapped c)
    (lookup : ∀ id c, t.tunnels.lookup id = some c ↔ s.tunnels.lookup id = some c ∧ c ∉ cs)
    (length : t.tunnels.keys.length ≤ s.tunnels.keys.length) (dialled : t.dialled = s.dialled)
    (teardown : t.teardown.Perm (cs ++ s.teardown)) (conns : t.conns = s.conns) : t.Sound := by
  have hTeardown : ∀ c, c ∈ t.teardown ↔ c ∈ cs ∨ c ∈ s.teardown := fun c => by
    rw [teardown.mem_iff, List.mem_append]
  have hBefore : ∀ c ∈ cs, c < s.dialled ∧ c ∉ s.teardown := by
    intro c hc
    obtain ⟨id, h⟩ := mapped c hc
    exact ⟨(hs.mapped id c h).1, (hs.mapped id c h).2.2⟩
  refine ⟨Nat.le_trans length hs.capacity, ?_, ?_, ?_, ?_⟩
  · intro id c h
    obtain ⟨hLookup, hOut⟩ := (lookup id c).mp h
    obtain ⟨hc, hID, hPending⟩ := hs.mapped id c hLookup
    rw [dialled, conns, hTeardown, not_or]
    exact ⟨hc, hID, hOut, hPending⟩
  · refine ⟨teardown.nodup_iff.mpr ?_, fun c hc => ?_⟩
    · exact List.nodup_append.mpr ⟨distinct, hs.pending.1, fun c hc d hd hEq =>
        (hBefore c hc).2 (hEq ▸ hd)⟩
    · rw [dialled]
      rcases (hTeardown c).mp hc with hc | hc
      · exact (hBefore c hc).1
      · exact hs.pending.2 c hc
  · intro c h
    rw [conns]
    apply hs.unclosed c
    rcases h with ⟨id, h⟩ | hc
    · exact Or.inl ⟨id, ((lookup id c).mp h).1⟩
    · rcases (hTeardown c).mp hc with hc | hc
      · exact Or.inl (mapped c hc)
      · exact Or.inr hc
  · intro c hc hOut hPending
    rw [dialled] at hc
    rw [hTeardown, not_or] at hPending
    rw [conns]
    refine hs.closed c hc (fun hMapped => hOut ?_) hPending.2
    obtain ⟨id, h⟩ := hMapped
    exact ⟨id, (lookup id c).mpr ⟨h, hPending.1⟩⟩

theorem sound_closed (hs : s.Sound) (tunnels : t.tunnels = s.tunnels)
    (dialled : t.dialled = s.dialled) (teardown : s.teardown.Perm (c :: t.teardown))
    (conns : t.conns = (s.update c TunnelConn.close).conns) : t.Sound := by
  have hMapped : ∀ d, t.Mapped d ↔ s.Mapped d := fun d => by rw [Mapped, Mapped, tunnels]
  have hTeardown : ∀ d, d ∈ s.teardown ↔ d = c ∨ d ∈ t.teardown := fun d => by
    rw [teardown.mem_iff, List.mem_cons]
  obtain ⟨hOnce, hDistinct⟩ := List.nodup_cons.mp (teardown.nodup_iff.mp hs.pending.1)
  have hOther : ∀ d, d ≠ c → t.conns d = s.conns d := fun d hd => by rw [conns, update_of_ne hd]
  refine ⟨tunnels ▸ hs.capacity, ?_, ?_, ?_, ?_⟩
  · intro id d h
    rw [tunnels] at h
    obtain ⟨hd, hID, hPending⟩ := hs.mapped id d h
    rw [hTeardown, not_or] at hPending
    rw [dialled, hOther d hPending.1]
    exact ⟨hd, hID, hPending.2⟩
  · refine ⟨hDistinct, fun d hd => ?_⟩
    rw [dialled]
    exact hs.pending.2 d ((hTeardown d).mpr (Or.inr hd))
  · intro d h
    have hd : d ≠ c := by
      rintro rfl
      rcases h with ⟨id, h⟩ | h
      · rw [tunnels] at h
        exact (hs.mapped id d h).2.2 ((hTeardown d).mpr (Or.inl rfl))
      · exact hOnce h
    rw [hOther d hd]
    rw [hMapped] at h
    exact hs.unclosed d (h.imp id fun h => (hTeardown d).mpr (Or.inr h))
  · intro d hd hOut hPending
    rw [dialled] at hd
    rw [hMapped] at hOut
    by_cases hc : d = c
    · subst hc
      obtain ⟨hCloses, hFresh⟩ := hs.unclosed d (Or.inr ((hTeardown d).mpr (Or.inl rfl)))
      rw [conns, update_self, TunnelConn.close, hFresh]
      simp [hCloses]
    · rw [hOther d hc]
      refine hs.closed d hd hOut fun h => ?_
      rcases (hTeardown d).mp h with h | h
      · exact hc h
      · exact hPending h

theorem sound_step (hs : s.Sound) (e : Event) : (s.step e).Sound := by
  cases change_step hs e with
  | kept tunnels dialled teardown conns => exact sound_kept hs tunnels dialled teardown conns
  | created absent room tunnels dialled teardown conns =>
      exact sound_created hs absent room tunnels dialled teardown conns
  | removed cs distinct mapped lookup length dialled teardown conns =>
      exact sound_removed hs distinct mapped lookup length dialled teardown conns
  | closed c tunnels dialled teardown conns => exact sound_closed hs tunnels dialled teardown conns

theorem sound_newShim (sessionToken : Bytes) : (newShim sessionToken).Sound := by
  refine ⟨Nat.zero_le _, ?_, ⟨List.nodup_nil, fun c hc => by cases hc⟩, ?_, ?_⟩
  · intro id c h
    cases h
  · rintro c (⟨id, h⟩ | h) <;> cases h
  · intro c hc
    cases hc

/-- The pump of `c` stops: its context is cancelled, its socket fails, or the relay's does. -/
def Stops (s : Shim) : Event → ConnID → Prop
  | .pumpCheck d, c => d = c ∧ (s.conns c).pump = .checking ∧ s.cancelled = true
  | .replyError d, c => d = c ∧ (s.conns c).pump = .reading
  | .forward d ok, c => d = c ∧ (∃ frame, (s.conns c).pump = .sending frame) ∧ ok = false
  | _, _ => False

/-- No pump stops while its tunnel is in the map. -/
def KeepsPumps (s : Shim) (e : Event) : Prop := ∀ c, s.Stops e c → ¬ s.Mapped c

theorem pump_update {d : ConnID} {f : TunnelConn → TunnelConn} (h : ∀ tc, (f tc).pump = tc.pump) :
    ((s.update c f).conns d).pump = (s.conns d).pump := by
  by_cases hd : d = c
  · subst hd
    rw [update_self, h]
  · rw [update_of_ne hd]

theorem pump_close (tc : TunnelConn) : tc.close.pump = tc.pump := by
  rw [TunnelConn.close]
  split <;> rfl

theorem pump_toWireGuard (hc : c < s.dialled) (now : Int) (dial : Bool) (id : UInt64)
    (payload : Bytes) : ((s.toWireGuard now dial id payload).conns c).pump = (s.conns c).pump := by
  unfold toWireGuard
  cases s.tunnels.lookup id with
  | some d =>
      have hActive : ((s.update d ({ · with lastActive := now })).conns c).pump = (s.conns c).pump :=
        pump_update fun _ => rfl
      exact hActive
  | none =>
      have hNew : (s.update s.dialled fun _ => .new id now).conns c = s.conns c :=
        update_of_ne (Nat.ne_of_lt hc) _
      dsimp only
      split_ifs
      · rfl
      · rw [hNew]
      · rfl

/-- The frame loop and the reaper do not touch the pumps of tunnels that exist. -/
theorem pump_step (hc : c < s.dialled)
    (h : ∀ d, e ≠ .pumpCheck d ∧ (∀ now bytes, e ≠ .reply d now bytes) ∧ e ≠ .replyError d ∧
      ∀ ok, e ≠ .forward d ok) : ((s.step e).conns c).pump = (s.conns c).pump := by
  cases e with
  | bind ok =>
      rw [step]
      split
      · cases ok <;> rfl
      · rfl
  | cancel => rfl
  | check =>
      rw [step]
      split
      · split <;> rfl
      · rfl
  | datagram now bytes dial =>
      rw [step]
      split
      · unfold receive
        split
        next => rfl
        next fr _ =>
          split_ifs
          · exact pump_toWireGuard hc now dial _ _
          · unfold closeTunnel
            cases s.tunnels.lookup fr.tunnelID <;> rfl
          · rfl
      · rfl
  | readError =>
      rw [step]
      split <;> rfl
  | proceed =>
      rw [step, proceed]
      split
      · rfl
      · exact pump_update pump_close
      · rfl
      · rfl
  | tick now =>
      rw [step]
      split <;> rfl
  | reap =>
      rw [step]
      split
      · rfl
      · exact pump_update pump_close
  | pumpCheck d => exact absurd rfl (h d).1
  | reply d now bytes => exact absurd rfl ((h d).2.1 now bytes)
  | replyError d => exact absurd rfl (h d).2.2.1
  | forward d ok => exact absurd rfl ((h d).2.2.2 ok)
  | keepalive ok =>
      rw [step]
      split
      · cases ok <;> rfl
      · rfl

/-- A pump is stopped after a step if it was before, or stops in it. -/
theorem stopped_step_iff (hc : c < s.dialled) (e : Event) :
    ((s.step e).conns c).pump = .stopped ↔ (s.conns c).pump = .stopped ∨ s.Stops e c := by
  have hOther : ∀ {d : ConnID} {f : TunnelConn → TunnelConn}, d ≠ c →
      ((s.update d f).conns c).pump = (s.conns c).pump :=
    fun hd => congrArg TunnelConn.pump (update_of_ne (Ne.symm hd) _)
  cases e with
  | pumpCheck d =>
      rw [step, Stops]
      by_cases hd : d = c
      · subst hd
        split
        next hPump => cases s.cancelled <;> simp [hPump]
        next hPump => simp [hPump]
      · split
        · rw [hOther hd]
          simp [hd]
        · simp [hd]
  | reply d now bytes =>
      have hNever : ¬ s.Stops (.reply d now bytes) c := id
      rw [step, or_iff_left hNever]
      split
      next hPump =>
        by_cases hd : d = c
        · subst hd
          simp [hPump.1]
        · rw [hOther hd]
      next => rfl
  | replyError d =>
      rw [step, Stops]
      by_cases hd : d = c
      · subst hd
        split
        next hPump => simp [hPump]
        next hPump => simp [hPump]
      · split
        · rw [hOther hd]
          simp [hd]
        · simp [hd]
  | forward d ok =>
      rw [step, Stops]
      by_cases hd : d = c
      · subst hd
        split
        next hPump => cases ok <;> simp [hPump]
        next hPump =>
          refine (or_iff_left ?_).symm
          rintro ⟨-, ⟨frame, hFrame⟩, -⟩
          exact hPump frame hFrame
      · split
        · split
          · have hSame : ((s.update d ({ · with pump := .checking })).conns c).pump =
                (s.conns c).pump := hOther hd
            simp [hd, hSame]
          · rw [hOther hd]
            simp [hd]
        · simp [hd]
  | _ =>
      rw [pump_step hc (by simp)]
      simp [Stops]

/-- An event that stops a pump leaves the map as it is. -/
theorem tunnels_of_stops (h : s.Stops e c) : (s.step e).tunnels = s.tunnels := by
  cases e with
  | pumpCheck d =>
      rw [step]
      split <;> rfl
  | replyError d =>
      rw [step]
      split <;> rfl
  | forward d ok =>
      rw [step]
      split
      · split <;> rfl
      · rfl
  | _ => exact h.elim

/-- What is in the map after a step was there before, or has just been dialled. -/
theorem Change.mapped (h : Change s t) (hMapped : t.Mapped c) :
    s.Mapped c ∨ (t.conns c).pump = .checking := by
  obtain ⟨id, hLookup⟩ := hMapped
  cases h with
  | kept tunnels => exact Or.inl ⟨id, tunnels ▸ hLookup⟩
  | @created new now absent room tunnels dialled teardown conns =>
      rw [tunnels] at hLookup
      by_cases hNew : id = new
      · subst hNew
        rw [AList.lookup_insert] at hLookup
        obtain rfl := Option.some.inj hLookup
        right
        rw [conns, update_self]
        rfl
      · rw [AList.lookup_insert_ne hNew] at hLookup
        exact Or.inl ⟨id, hLookup⟩
  | removed cs distinct mapped lookup => exact Or.inl ⟨id, ((lookup id c).mp hLookup).1⟩
  | closed d tunnels => exact Or.inl ⟨id, tunnels ▸ hLookup⟩

/-- The pumps of the tunnels in the map run. -/
def Running (s : Shim) : Prop := ∀ c, s.Mapped c → (s.conns c).pump ≠ .stopped

theorem running_step (hs : s.Sound) (hRunning : s.Running) (hKeeps : s.KeepsPumps e) :
    (s.step e).Running := by
  intro c hMapped hStopped
  rcases (change_step hs e).mapped hMapped with hBefore | hChecking
  · obtain ⟨id, hLookup⟩ := hBefore
    rcases (stopped_step_iff (hs.mapped id c hLookup).1 e).mp hStopped with hOld | hStops
    · exact hRunning c ⟨id, hLookup⟩ hOld
    · exact hKeeps c hStops ⟨id, hLookup⟩
  · rw [hChecking] at hStopped
    cases hStopped

/-- The steps that complete every teardown in progress. -/
def finishing (s : Shim) : List Event :=
  List.replicate s.loop.toClose.length .proceed ++ List.replicate s.expired.length .reap

def finish (s : Shim) : Shim := run step s s.finishing

theorem run_proceed (s : Shim) :
    (run step s (List.replicate s.loop.toClose.length .proceed)).loop.toClose = [] ∧
    (run step s (List.replicate s.loop.toClose.length .proceed)).tunnels = s.tunnels ∧
    (run step s (List.replicate s.loop.toClose.length .proceed)).dialled = s.dialled ∧
    (run step s (List.replicate s.loop.toClose.length .proceed)).expired = s.expired := by
  generalize hClose : s.loop.toClose = cs
  induction cs generalizing s with
  | nil => exact ⟨hClose, rfl, rfl, rfl⟩
  | cons c cs ih =>
      obtain ⟨last, hLoop⟩ : ∃ last, s.loop = .closing (c :: cs) last := by
        cases hLoop : s.loop with
        | closing conns last =>
            rw [hLoop] at hClose
            exact ⟨last, by rw [← hClose]; rfl⟩
        | _ =>
            rw [hLoop] at hClose
            cases hClose
      have hStep : s.step .proceed =
          { s.update c TunnelConn.close with loop := .closing cs last } := by
        rw [step, proceed, hLoop]
      rw [List.length_cons, List.replicate_succ, run_cons, hStep]
      exact ih _ rfl

theorem run_reap (s : Shim) :
    (run step s (List.replicate s.expired.length .reap)).expired = [] ∧
    (run step s (List.replicate s.expired.length .reap)).tunnels = s.tunnels ∧
    (run step s (List.replicate s.expired.length .reap)).dialled = s.dialled ∧
    (run step s (List.replicate s.expired.length .reap)).loop = s.loop := by
  generalize hExpired : s.expired = cs
  induction cs generalizing s with
  | nil => exact ⟨hExpired, rfl, rfl, rfl⟩
  | cons c cs ih =>
      have hStep : s.step .reap = { s.update c TunnelConn.close with expired := cs } := by
        rw [step, hExpired]
      rw [List.length_cons, List.replicate_succ, run_cons, hStep]
      exact ih _ rfl

/-- When they are completed nothing is left to close, and the map is the same. -/
theorem finish_eq (s : Shim) :
    s.finish.teardown = [] ∧ s.finish.tunnels = s.tunnels ∧ s.finish.dialled = s.dialled := by
  obtain ⟨hClosed, hTunnels, hDialled, hExpired⟩ := s.run_proceed
  rw [finish, finishing, run_append, ← hExpired]
  obtain ⟨hReaped, hTunnels', hDialled', hLoop'⟩ :=
    run_reap (run step s (List.replicate s.loop.toClose.length .proceed))
  refine ⟨?_, hTunnels'.trans hTunnels, hDialled'.trans hDialled⟩
  rw [teardown, hReaped, hLoop', hClosed]
  rfl

/-- At most 256 tunnels are mapped, each with an open socket and a running pump; a tunnel
that was taken out is closed once when the teardowns in progress are completed, and not
more than once before. -/
structure TunnelsWork (s : Shim) : Prop where
  capacity : s.tunnels.keys.length ≤ maxTunnels
  working : ∀ id c, s.tunnels.lookup id = some c →
    (s.conns c).closes = 0 ∧ (s.conns c).pump ≠ .stopped
  removed : ∀ c < s.dialled, (∀ id, s.tunnels.lookup id ≠ some c) →
    (s.conns c).closes ≤ 1 ∧ (s.finish.conns c).closes = 1

theorem tunnelsWork_iff (hs : s.Sound) : s.TunnelsWork ↔ s.Running := by
  constructor
  · rintro h c ⟨id, hLookup⟩
    exact (h.working id c hLookup).2
  · intro hRunning
    refine ⟨hs.capacity, ?_, ?_⟩
    · intro id c hLookup
      exact ⟨(hs.unclosed c (Or.inl ⟨id, hLookup⟩)).1, hRunning c ⟨id, hLookup⟩⟩
    · intro c hc hOut
      have hUnmapped : ¬ s.Mapped c := fun ⟨id, h⟩ => hOut id h
      obtain ⟨hTeardown, hTunnels, hDialled⟩ := s.finish_eq
      have hFinish : s.finish.Sound := invariant_always Sound (fun _ e h => sound_step h e) hs _
      constructor
      · by_cases hPending : c ∈ s.teardown
        · rw [(hs.unclosed c (Or.inr hPending)).1]
          exact Nat.zero_le 1
        · rw [hs.closed c hc hUnmapped hPending]
      · refine hFinish.closed c (hDialled ▸ hc) ?_ (by rw [hTeardown]; exact List.not_mem_nil)
        rw [Mapped, hTunnels]
        exact hUnmapped

/-- Over any interleaving, all tunnels work at all times exactly if no pump stops while its
tunnel is in the map. -/
theorem tunnels_work_iff (sessionToken : Bytes) (events : List Event) :
    (∀ n, (run step (newShim sessionToken) (events.take n)).TunnelsWork) ↔
      Meets step KeepsPumps (newShim sessionToken) events := by
  have hSound : ∀ n, (run step (newShim sessionToken) (events.take n)).Sound := fun n =>
    invariant_always Sound (fun _ e h => sound_step h e) (sound_newShim sessionToken) _
  constructor
  · intro hWork
    refine meets_of_getElem fun n e hEvent c hStops hMapped => ?_
    obtain ⟨id, hLookup⟩ := hMapped
    have hAfter := hWork (n + 1)
    rw [run_take_succ hEvent] at hAfter
    have hStill := hLookup
    rw [← tunnels_of_stops hStops] at hStill
    refine (hAfter.working id c hStill).2 ?_
    exact (stopped_step_iff ((hSound n).mapped id c hLookup).1 e).mpr (Or.inr hStops)
  · intro hMeets n
    rw [tunnelsWork_iff (hSound n)]
    have hStart : (newShim sessionToken).Sound ∧ (newShim sessionToken).Running := by
      refine ⟨sound_newShim sessionToken, ?_⟩
      rintro c ⟨id, h⟩
      cases h
    exact (invariant_run (fun s => s.Sound ∧ s.Running)
      (fun s e h hKeeps => ⟨sound_step h.1 e, running_step h.1 h.2 hKeeps⟩) hStart (hMeets.take n)).2

/-- The local WireGuard port refuses a datagram, the pump's `Read` fails and the pump
stops; the tunnel stays in the map, and later datagrams keep it from being reaped. -/
theorem pump_lost :
    let s := run step (newShim (List.replicate sessionTokenLen 0))
      [.bind true, .check, .datagram 0 (dataFrame 7 [1]) true, .proceed, .pumpCheck 0, .replyError 0,
        .check, .datagram 200000000000 (dataFrame 7 [1]) true, .proceed, .tick 400000000000]
    s.tunnels.lookup 7 = some 0 ∧ (s.conns 0).closes = 0 ∧ (s.conns 0).pump = .stopped ∧
      ¬ s.TunnelsWork := by
  intro s
  have hLookup : s.tunnels.lookup 7 = some 0 := by decide +kernel
  have hStopped : (s.conns 0).pump = .stopped := by decide +kernel
  exact ⟨hLookup, by decide +kernel, hStopped, fun h => (h.working 7 0 hLookup).2 hStopped⟩

end Shim

end Relay
