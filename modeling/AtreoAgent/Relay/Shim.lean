import AtreoAgent.Machine.Run
import AtreoAgent.Relay.Frame
import Mathlib.Data.List.AList
import Mathlib.Data.List.TakeDrop

/-! The relay shim (`shim.go`). One goroutine reads frames from the relay, one closes idle
tunnels, one sends keepalives, and each tunnel has a pump of its own for the replies. What
a goroutine does under the lock is one step; before and after it the others may move. The
warning at capacity touches none of this and is left out. -/
namespace Relay

open Codec Machine

def maxDatagram : Nat := 1500

def maxTunnels : Nat := 256

/-- Nanoseconds. -/
def tunnelIdleTimeout : Int := 5 * 60 * 1000000000

/-- The sockets are numbered as they are dialled. -/
abbrev ConnID := Nat

/-- Where a reply pump is. -/
inductive Pump where
  | checking
  | reading
  | sending (frame : Bytes)
  | stopped
  deriving DecidableEq, Repr

structure TunnelConn where
  /-- The tunnel its pump was started for. -/
  tunnelID : UInt64
  lastActive : Int
  /-- `closeOnce` has been done. -/
  once : Bool := false
  /-- Calls of `Close` on the socket. -/
  closes : Nat := 0
  pump : Pump
  /-- The slice that frames are written into. -/
  send : Slice
  deriving DecidableEq, Repr

/-- Where the frame loop `run` is. -/
inductive Loop where
  | binding
  | checking
  | reading
  | writing (conn : ConnID) (payload : Bytes)
  /-- Tunnels that are out of the map and not closed yet; whether `run` is returning. -/
  | closing (conns : List ConnID) (last : Bool)
  | returned
  deriving DecidableEq, Repr

structure Shim where
  sessionToken : Bytes
  tunnels : AList fun _ : UInt64 => ConnID
  conns : ConnID → TunnelConn
  dialled : Nat
  loop : Loop
  /-- Tunnels that the reaper has taken out of the map and not closed yet. -/
  expired : List ConnID
  /-- Whether the loop that sends keepalives runs. -/
  keepalive : Bool
  cancelled : Bool
  /-- What was written to the relay. -/
  relayed : List Bytes
  /-- What was written to the sockets of WireGuard. -/
  delivered : List (ConnID × Bytes)

inductive Event where
  | bind (ok : Bool)
  | cancel
  /-- The `select` at the top of the frame loop. -/
  | check
  /-- A datagram comes in; `dial` says whether a socket can be opened, if one is needed. -/
  | datagram (now : Int) (bytes : Bytes) (dial : Bool)
  | readError
  /-- What the frame loop does after it released the lock. -/
  | proceed
  | tick (now : Int)
  /-- The reaper closes the next expired tunnel. -/
  | reap
  | pumpCheck (conn : ConnID)
  | reply (conn : ConnID) (now : Int) (bytes : Bytes)
  | replyError (conn : ConnID)
  | forward (conn : ConnID) (ok : Bool)
  | keepalive (ok : Bool)
  deriving DecidableEq, Repr

def newShim (sessionToken : Bytes) : Shim where
  sessionToken := sessionToken
  tunnels := ∅
  conns _ := { tunnelID := 0, lastActive := 0, pump := .stopped, send := Slice.make 0 }
  dialled := 0
  loop := .binding
  expired := []
  keepalive := false
  cancelled := false
  relayed := []
  delivered := []

/-- A tunnel whose socket has just been dialled. -/
def TunnelConn.new (tunnelID : UInt64) (now : Int) : TunnelConn where
  tunnelID := tunnelID
  lastActive := now
  pump := .checking
  send := Slice.make (maxDatagram + dataHeaderLen)

/-- `closeOnce.Do` with `Close`. -/
def TunnelConn.close (tc : TunnelConn) : TunnelConn :=
  if tc.once then tc else { tc with once := true, closes := tc.closes + 1 }

namespace Shim

def update (s : Shim) (c : ConnID) (f : TunnelConn → TunnelConn) : Shim :=
  { s with conns := fun d => if d = c then f (s.conns d) else s.conns d }

/-- The map and the lock's part of `toWireGuard`. -/
def toWireGuard (now : Int) (dial : Bool) (s : Shim) (tunnelID : UInt64) (payload : Bytes) : Shim :=
  match s.tunnels.lookup tunnelID with
  | some c => { s.update c ({ · with lastActive := now }) with loop := .writing c payload }
  | none =>
      if maxTunnels ≤ s.tunnels.keys.length then { s with loop := .checking }
      else if dial then
        { s.update s.dialled (fun _ => .new tunnelID now) with
          tunnels := s.tunnels.insert tunnelID s.dialled
          dialled := s.dialled + 1
          loop := .writing s.dialled payload }
      else { s with loop := .checking }

def closeTunnel (s : Shim) (tunnelID : UInt64) : Shim :=
  match s.tunnels.lookup tunnelID with
  | some c => { s with tunnels := s.tunnels.erase tunnelID, loop := .closing [c] false }
  | none => { s with loop := .checking }

/-- The deferred call when `run` returns. -/
def closeAll (s : Shim) : Shim :=
  { s with tunnels := ∅, loop := .closing (s.tunnels.entries.map (·.2)) true }

/-- A datagram that was read into the buffer of the frame loop. -/
def receive (now : Int) (dial : Bool) (s : Shim) (datagram : Bytes) : Shim :=
  match parseFrame (datagram.take maxDatagram) with
  | .error _ => { s with loop := .checking }
  | .ok fr =>
      if fr.typ = frameData then s.toWireGuard now dial fr.tunnelID fr.payload
      else if fr.typ = frameClose then s.closeTunnel fr.tunnelID
      else { s with loop := .checking }

def expiredAt (now : Int) (s : Shim) : List (Sigma fun _ : UInt64 => ConnID) :=
  s.tunnels.entries.filter fun e => (s.conns e.2).lastActive < now - tunnelIdleTimeout

/-- The lock's part of `reapOnce`. -/
def reapOnce (now : Int) (s : Shim) : Shim :=
  { s with
    tunnels := (s.expiredAt now).foldl (fun m e => m.erase e.1) s.tunnels
    expired := (s.expiredAt now).map (·.2) }

/-- What the frame loop has left to do. -/
def proceed (s : Shim) : Shim :=
  match s.loop with
  | .writing c payload => { s with delivered := s.delivered ++ [(c, payload)], loop := .checking }
  | .closing (c :: cs) last => { s.update c TunnelConn.close with loop := .closing cs last }
  | .closing [] last => { s with loop := if last then .returned else .checking }
  | _ => s

/-- An event of a goroutine that is somewhere else changes nothing. -/
def step (s : Shim) : Event → Shim
  | .bind ok =>
      if s.loop = .binding then
        if ok then
          { s with
            loop := .checking
            keepalive := true
            relayed := s.relayed ++ [encodeBind s.sessionToken] }
        else { s with loop := .returned }
      else s
  | .cancel => { s with cancelled := true }
  | .check =>
      if s.loop = .checking then if s.cancelled then s.closeAll else { s with loop := .reading }
      else s
  | .datagram now bytes dial => if s.loop = .reading then s.receive now dial bytes else s
  | .readError => if s.loop = .reading then s.closeAll else s
  | .proceed => s.proceed
  | .tick now => if s.expired = [] then s.reapOnce now else s
  | .reap =>
      match s.expired with
      | [] => s
      | c :: cs => { s.update c TunnelConn.close with expired := cs }
  | .pumpCheck c =>
      if (s.conns c).pump = .checking then
        s.update c ({ · with pump := if s.cancelled then .stopped else .reading })
      else s
  | .reply c now bytes =>
      if (s.conns c).pump = .reading ∧ (s.conns c).closes = 0 then
        s.update c fun tc =>
          let send := encodeData tc.send tc.tunnelID (bytes.take maxDatagram)
          { tc with lastActive := now, send := send, pump := .sending send.bytes }
      else s
  | .replyError c =>
      if (s.conns c).pump = .reading then s.update c ({ · with pump := .stopped }) else s
  | .forward c ok =>
      match (s.conns c).pump with
      | .sending frame =>
          if ok then
            { s.update c ({ · with pump := .checking }) with relayed := s.relayed ++ [frame] }
          else s.update c ({ · with pump := .stopped })
      | _ => s
  | .keepalive ok =>
      if s.keepalive then
        if ok then { s with relayed := s.relayed ++ [encodeKeepalive] }
        else { s with keepalive := false }
      else s

@[simp] theorem update_self (s : Shim) (c : ConnID) (f : TunnelConn → TunnelConn) :
    (s.update c f).conns c = f (s.conns c) := if_pos rfl

theorem update_of_ne {s : Shim} {c d : ConnID} (h : d ≠ c) (f : TunnelConn → TunnelConn) :
    (s.update c f).conns d = s.conns d := if_neg h

/-- The datagram in a DATA frame is written to the socket of its tunnel as it is. -/
def Delivers (s : Shim) (now : Int) (dial : Bool) (tunnelID : UInt64) (datagram : Bytes) : Prop :=
  ∃ c, (run step s [.datagram now (dataFrame tunnelID datagram) dial, .proceed]).tunnels.lookup
      tunnelID = some c ∧
    (run step s [.datagram now (dataFrame tunnelID datagram) dial, .proceed]).delivered =
      s.delivered ++ [(c, datagram)]

/-- A datagram from the socket goes to the relay in a frame that names the tunnel and is
parsed to the same octets. -/
def Returns (s : Shim) (now : Int) (c : ConnID) (datagram : Bytes) : Prop :=
  ∃ frame, (run step s [.reply c now datagram, .forward c true]).relayed =
      s.relayed ++ [frame] ∧
    parseFrame frame = .ok ⟨frameData, (s.conns c).tunnelID, datagram⟩

theorem returns {s : Shim} {c : ConnID} (hReading : (s.conns c).pump = .reading)
    (hOpen : (s.conns c).closes = 0) {datagram : Bytes} (hSize : datagram.length ≤ maxDatagram)
    (now : Int) : s.Returns now c datagram := by
  refine ⟨dataFrame (s.conns c).tunnelID datagram, ?_, parseFrame_dataFrame _ _⟩
  have hFrame := (encodeData_eq (s.conns c).send (s.conns c).tunnelID datagram).1
  simp [step, hReading, hOpen, List.take_of_length_le hSize, hFrame, update]

/-- What a DATA frame does: its payload is cut to what the buffer holds behind the header,
and is written if there is a tunnel or one can be made. -/
theorem run_dataFrame {s : Shim} (hLoop : s.loop = .reading) (now : Int) (dial : Bool)
    (tunnelID : UInt64) (datagram : Bytes) :
    s.step (.datagram now (dataFrame tunnelID datagram) dial) =
      s.toWireGuard now dial tunnelID (datagram.take (maxDatagram - dataHeaderLen)) := by
  have hParse := parseFrame_take tunnelID datagram (n := maxDatagram) (by decide)
  rw [step, if_pos hLoop, receive, hParse]
  exact if_pos rfl

/-- `toWireGuard` followed by its write. -/
theorem proceed_toWireGuard (now : Int) (dial : Bool) (s : Shim) (tunnelID : UInt64)
    (payload : Bytes) :
    (∃ c, ((s.toWireGuard now dial tunnelID payload).proceed).tunnels.lookup tunnelID = some c ∧
      ((s.toWireGuard now dial tunnelID payload).proceed).delivered =
        s.delivered ++ [(c, payload)] ∧
      (tunnelID ∈ s.tunnels ∨ s.tunnels.keys.length < maxTunnels ∧ dial = true)) ∨
    (((s.toWireGuard now dial tunnelID payload).proceed).delivered = s.delivered ∧
      ¬ (tunnelID ∈ s.tunnels ∨ s.tunnels.keys.length < maxTunnels ∧ dial = true)) := by
  unfold toWireGuard
  cases hLookup : s.tunnels.lookup tunnelID with
  | some c =>
      have hMem : tunnelID ∈ s.tunnels := AList.lookup_isSome.mp (by rw [hLookup]; rfl)
      exact Or.inl ⟨c, hLookup, rfl, Or.inl hMem⟩
  | none =>
      have hMem : tunnelID ∉ s.tunnels := AList.lookup_eq_none.mp hLookup
      dsimp only
      split_ifs with hFull hDial
      · exact Or.inr ⟨rfl, by simp [hMem, Nat.not_lt.mpr hFull]⟩
      · exact Or.inl ⟨s.dialled, AList.lookup_insert _, rfl, Or.inr ⟨Nat.not_le.mp hFull, hDial⟩⟩
      · exact Or.inr ⟨rfl, by simp [hMem, hDial]⟩

/-- The shim moves a datagram unchanged both ways exactly if it leaves room for the header
in the buffer of the frame loop, and its tunnel is mapped or can be. -/
theorem datagrams_unchanged_iff (s : Shim) (hLoop : s.loop = .reading) (now : Int) (dial : Bool)
    (tunnelID : UInt64) (datagram : Bytes) (hSize : datagram.length ≤ maxDatagram) :
    (s.Delivers now dial tunnelID datagram ∧
      ∀ c, (s.conns c).tunnelID = tunnelID → (s.conns c).pump = .reading →
        (s.conns c).closes = 0 → s.Returns now c datagram) ↔
    dataHeaderLen + datagram.length ≤ maxDatagram ∧
      (tunnelID ∈ s.tunnels ∨ s.tunnels.keys.length < maxTunnels ∧ dial = true) := by
  have hReturns : ∀ c, (s.conns c).tunnelID = tunnelID → (s.conns c).pump = .reading →
      (s.conns c).closes = 0 → s.Returns now c datagram :=
    fun c _ hReading hOpen => returns hReading hOpen hSize now
  rw [and_iff_left hReturns]
  have hRun : run step s [.datagram now (dataFrame tunnelID datagram) dial, .proceed] =
      (s.toWireGuard now dial tunnelID (datagram.take (maxDatagram - dataHeaderLen))).proceed := by
    rw [run_cons, run_dataFrame hLoop]
    rfl
  have hCut : datagram.take (maxDatagram - dataHeaderLen) = datagram ↔
      dataHeaderLen + datagram.length ≤ maxDatagram := by
    have hRoom : dataHeaderLen ≤ maxDatagram := by decide
    rw [List.take_eq_self_iff]
    omega
  rw [Delivers, hRun, ← hCut]
  rcases proceed_toWireGuard now dial s tunnelID (datagram.take (maxDatagram - dataHeaderLen)) with
    ⟨c, hLookup, hDelivered, hRoom⟩ | ⟨hDelivered, hRoom⟩
  · rw [hDelivered, hLookup]
    constructor
    · rintro ⟨d, -, hEq⟩
      have hLast := List.append_cancel_left hEq
      simp only [List.cons.injEq, Prod.mk.injEq, and_true] at hLast
      exact ⟨hLast.2, hRoom⟩
    · rintro ⟨hEq, -⟩
      exact ⟨c, rfl, by rw [hEq]⟩
  · rw [hDelivered]
    constructor
    · rintro ⟨d, -, hEq⟩
      have hLength := congrArg List.length hEq
      simp at hLength
    · rintro ⟨-, hNow⟩
      exact absurd hNow hRoom

/-- The frame loop in `Read`, with the tunnel 7 mapped and its pump in `Read`. -/
def sample : Shim :=
  run step (newShim (List.replicate sessionTokenLen 0))
    [.bind true, .check, .datagram 0 (dataFrame 7 []) true, .proceed, .check, .pumpCheck 0]

/-- The longest datagram that fits. -/
theorem sample_moves_datagram :
    (sample.Delivers 1 false 7 (List.replicate 1491 5) ∧
      ∀ c, (sample.conns c).tunnelID = 7 → (sample.conns c).pump = .reading →
        (sample.conns c).closes = 0 → sample.Returns 1 c (List.replicate 1491 5)) ∧
      7 ∈ sample.tunnels := by
  have hMem : 7 ∈ sample.tunnels := by decide +kernel
  have hUnchanged := datagrams_unchanged_iff sample (by decide +kernel) 1 false 7
    (List.replicate 1491 5) (by rw [List.length_replicate]; decide)
  exact ⟨hUnchanged.mpr ⟨by rw [List.length_replicate]; decide, Or.inl hMem⟩, hMem⟩

/-- A datagram of 1500 octets that the relay sends for a mapped tunnel loses the last nine. -/
theorem long_datagram_cut :
    (List.replicate 1500 (5 : UInt8)).length ≤ maxDatagram ∧ sample.loop = .reading ∧
      7 ∈ sample.tunnels ∧
      (run step sample [.datagram 1 (dataFrame 7 (List.replicate 1500 5)) true,
        .proceed]).delivered = [(0, []), (0, List.replicate 1491 5)] ∧
      ¬ sample.Delivers 1 true 7 (List.replicate 1500 5) := by
  have hDelivered : (run step sample [.datagram 1 (dataFrame 7 (List.replicate 1500 5)) true,
      .proceed]).delivered = [(0, []), (0, List.replicate 1491 5)] := by decide +kernel
  have hBefore : sample.delivered = [(0, [])] := by decide +kernel
  refine ⟨by rw [List.length_replicate]; decide, by decide +kernel, by decide +kernel, hDelivered, ?_⟩
  rintro ⟨c, -, hEq⟩
  rw [hDelivered, hBefore] at hEq
  simp only [List.cons_append, List.nil_append, List.cons.injEq, Prod.mk.injEq, and_true,
    true_and] at hEq
  have hLength := congrArg List.length hEq.2
  simp only [List.length_replicate] at hLength
  omega

end Shim

end Relay
