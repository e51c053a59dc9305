import AtreoAgent.Tunnel.Rows
import AtreoAgent.WireGuard.Bindings

/-! The binding loop of an apply. A key that holds an address keeps it; a fresh key takes
one free host, by lease or by allocation; the loop fails when a fresh key finds no host
free. So whether it succeeds is a matter of counting. -/
namespace Tunnel

open Codec Json Atreolink WireGuard Fallible

/-- The keys that hold no address yet. -/
def freshKeys (a : Allocator) (keys : List String) : Finset String :=
  keys.toFinset.filter fun k => k ≠ "" ∧ a.allocated.lookup k = none

variable {a : Allocator} {net : Subnet} {leases : List (String × String)} {c d : ClientRecord}
  {ms bound : List MemberACLEntry}

theorem mem_freshKeys {keys : List String} {k : String} :
    k ∈ freshKeys a keys ↔ k ∈ keys ∧ k ≠ "" ∧ a.allocated.lookup k = none := by
  simp [freshKeys]

/-- The four outcomes of binding one client. -/
inductive Bound (net : Subnet) (a : Allocator) (c : ClientRecord) :
    Allocator × Except DeviceStateError ClientRecord → Prop where
  | keyless (hKey : c.wgPublicKey = "") : Bound net a c (a, .ok c)
  | held (ip : String) (hKey : c.wgPublicKey ≠ "")
      (hHeld : a.allocated.lookup c.wgPublicKey = some ip) :
      Bound net a c (a, .ok { c with tunnelIP := ip })
  | taken (ip : String) (hKey : c.wgPublicKey ≠ "")
      (hNone : a.allocated.lookup c.wgPublicKey = none) (hFree : ip ∈ a.free net) :
      Bound net a c (a.bind c.wgPublicKey ip, .ok { c with tunnelIP := ip })
  | exhausted (e : DeviceStateError) (hKey : c.wgPublicKey ≠ "")
      (hNone : a.allocated.lookup c.wgPublicKey = none) (hFree : a.free net = ∅) :
      Bound net a c (a, .error e)

theorem bindClient_cases (net : Subnet) (leases : List (String × String)) (a : Allocator)
    (c : ClientRecord) : Bound net a c (bindClient net leases a c) := by
  unfold bindClient
  split
  next hKey => exact .keyless hKey
  next hKey =>
    split
    next hLookup =>
      -- A non-empty lookup is an address that is held.
      unfold Allocator.lookup at hLookup ⊢
      cases hHeld : a.allocated.lookup c.wgPublicKey with
      | none =>
          rw [hHeld] at hLookup
          exact absurd rfl hLookup
      | some ip => exact .held ip hKey hHeld
    next =>
      dsimp only
      split
      next adopted hAdopt =>
        split at hAdopt
        · cases hAdopt
        · rcases Allocator.tryAdopt_cases hAdopt with ⟨rfl, hHeld⟩ | ⟨rfl, hNone, hFree⟩
          · exact .held _ hKey hHeld
          · exact .taken _ hKey hNone hFree
      next =>
        rcases Allocator.allocate_cases net a c.wgPublicKey with
          ⟨ip, hHeld, hAllocate⟩ | ⟨hNone, hFree, hAllocate⟩ | ⟨ip, hNone, hFree, hAllocate⟩ <;>
          rw [hAllocate]
        · exact .held ip hKey hHeld
        · exact .exhausted _ hKey hNone hFree
        · exact .taken ip hKey hNone hFree

/-- What holds of an allocator and survives each binding that the loop can make holds when the
loop ends, wherever it stops. -/
theorem walk_bind_preserves {P : Allocator → Prop} {cs : List ClientRecord}
    (hBind : ∀ b, P b → ∀ c ∈ cs, ∀ ip, c.wgPublicKey ≠ "" →
      b.allocated.lookup c.wgPublicKey = none → ip ∈ b.free net → P (b.bind c.wgPublicKey ip))
    (h : P a) : P (walk (bindClient net leases) a cs).1 := by
  refine walk_preserves (fun b hb c hc => ?_) h
  have hCase := bindClient_cases net leases b c
  generalize bindClient net leases b c = out at hCase ⊢
  cases hCase with
  | keyless hKey => exact hb
  | held ip hKey hHeld => exact hb
  | taken ip hKey hNone hFree => exact hBind b hb c hc ip hKey hNone hFree
  | exhausted e hKey hNone hFree => exact hb

theorem freshKeys_cons_of_not {key : String} (keys : List String)
    (h : ¬ (key ≠ "" ∧ a.allocated.lookup key = none)) :
    freshKeys a (key :: keys) = freshKeys a keys := by
  rw [freshKeys, List.toFinset_cons, Finset.filter_insert, if_neg h]
  rfl

/-- Binding a fresh key leaves the other fresh keys. -/
theorem freshKeys_cons_bind {key : String} (keys : List String) (ip : String) (hKey : key ≠ "")
    (hNone : a.allocated.lookup key = none) :
    freshKeys a (key :: keys) = insert key (freshKeys (a.bind key ip) keys) ∧
      key ∉ freshKeys (a.bind key ip) keys := by
  constructor
  · ext other
    simp only [Finset.mem_insert, mem_freshKeys, List.mem_cons, Allocator.lookup_bind]
    by_cases h : other = key
    · subst h
      simp [hKey, hNone]
    · simp [h]
  · simp [mem_freshKeys, Allocator.lookup_bind]

/-- The loop succeeds when there is a free host for every fresh key. -/
theorem walk_bindClient_isOk (net : Subnet) (leases : List (String × String)) (a : Allocator)
    (cs : List ClientRecord) :
    (walk (bindClient net leases) a cs).2.isOk = true ↔
      (freshKeys a (cs.map (·.wgPublicKey))).card ≤ (a.free net).card := by
  induction cs generalizing a with
  | nil => simp [walk, freshKeys, Except.isOk, Except.toBool]
  | cons c cs ih =>
      rw [List.map_cons]
      have hCase := bindClient_cases net leases a c
      generalize hOut : bindClient net leases a c = out at hCase
      cases hCase with
      | keyless hKey =>
          rw [(walk_cons_ok hOut cs).2, ih a, freshKeys_cons_of_not _ (fun h => h.1 hKey)]
      | held ip hKey hHeld =>
          rw [(walk_cons_ok hOut cs).2, ih a, freshKeys_cons_of_not _ (fun h => by simp [hHeld] at h)]
      | taken ip hKey hNone hFree =>
          obtain ⟨hInsert, hNew⟩ :=
            freshKeys_cons_bind (cs.map (·.wgPublicKey)) ip hKey hNone
          have hCount := Finset.card_erase_add_one hFree
          rw [(walk_cons_ok hOut cs).2, ih, Allocator.free_bind, hInsert, Finset.card_insert_of_notMem hNew, ← hCount]
          omega
      | exhausted e hKey hNone hFree =>
          obtain ⟨hInsert, _⟩ := freshKeys_cons_bind (cs.map (·.wgPublicKey)) "" hKey hNone
          rw [walk, hOut, hFree, hInsert]
          simp [Except.isOk, Except.toBool]

/-- What is bound in the first allocator is bound alike in the second. -/
def Keeps (a b : Allocator) : Prop :=
  ∀ key ip, a.allocated.lookup key = some ip → b.allocated.lookup key = some ip

theorem keeps_bindClient (net : Subnet) (leases : List (String × String)) (a : Allocator)
    (c : ClientRecord) : Keeps a (bindClient net leases a c).1 := by
  intro key ip h
  have hCase := bindClient_cases net leases a c
  generalize bindClient net leases a c = out at hCase ⊢
  cases hCase with
  | keyless hKey => exact h
  | held ip hKey hHeld => exact h
  | taken taken hKey hNone hFree =>
      have hOther : key ≠ c.wgPublicKey := by
        rintro rfl
        rw [h] at hNone
        cases hNone
      dsimp only
      rw [Allocator.lookup_bind, if_neg hOther, h]
  | exhausted e hKey hNone hFree => exact h

theorem keeps_walk (net : Subnet) (leases : List (String × String)) (a : Allocator)
    (cs : List ClientRecord) : Keeps a (walk (bindClient net leases) a cs).1 := by
  refine walk_preserves (fun b hb c _ => ?_) (fun _ _ h => h)
  exact fun key ip h => keeps_bindClient net leases b c key ip (hb key ip h)

/-- The loop leaves the allocator as it is when no key is fresh or no host is free. -/
theorem walk_bindClient_unchanged (net : Subnet) (leases : List (String × String)) (a : Allocator)
    (cs : List ClientRecord) :
    (walk (bindClient net leases) a cs).1 = a ↔
      freshKeys a (cs.map (·.wgPublicKey)) = ∅ ∨ a.free net = ∅ := by
  induction cs with
  | nil => simp [walk, freshKeys]
  | cons c cs ih =>
      rw [List.map_cons]
      have hCase := bindClient_cases net leases a c
      generalize hOut : bindClient net leases a c = out at hCase
      cases hCase with
      | keyless hKey =>
          rw [(walk_cons_ok hOut cs).1, ih, freshKeys_cons_of_not _ (fun h => h.1 hKey)]
      | held ip hKey hHeld =>
          rw [(walk_cons_ok hOut cs).1, ih, freshKeys_cons_of_not _ (fun h => by simp [hHeld] at h)]
      | taken ip hKey hNone hFree =>
          -- The key is bound for good.
          obtain ⟨hInsert, _⟩ := freshKeys_cons_bind (cs.map (·.wgPublicKey)) ip hKey hNone
          have hBound : (walk (bindClient net leases) (a.bind c.wgPublicKey ip) cs).1.allocated.lookup
              c.wgPublicKey = some ip := by
            refine keeps_walk net leases _ cs _ _ ?_
            rw [Allocator.lookup_bind, if_pos rfl]
          rw [(walk_cons_ok hOut cs).1, hInsert]
          constructor
          · intro hSame
            rw [hSame, hNone] at hBound
            cases hBound
          · rintro (hEmpty | hEmpty)
            · exact absurd hEmpty (Finset.insert_ne_empty _ _)
            · rw [hEmpty] at hFree
              cases hFree
      | exhausted e hKey hNone hFree =>
          rw [walk, hOut]
          simp [hFree]

theorem bindMembers_eq (net : Subnet) (leases : List (String × String)) (a : Allocator)
    (ms : List MemberACLEntry) :
    (bindMembers net leases a ms).1 =
        (walk (bindClient net leases) a (ms.flatMap (·.clients))).1 ∧
      (bindMembers net leases a ms).2.isOk =
        (walk (bindClient net leases) a (ms.flatMap (·.clients))).2.isOk :=
  walk_walkParts (bindClient net leases) MemberACLEntry.clients
    (fun m clients => ({ m with clients := clients } : MemberACLEntry)) a ms

/-- The binding loop of a device state, over all its clients. -/
theorem Checked.binding_eq {env : Env} {now : Time} {agent : Agent} {msg : TunnelMessage}
    (c : Checked env now agent msg) :
    c.binding.1 = (walk (bindClient env.subnet c.leases) agent.allocator
        (c.entries.flatMap (·.clients))).1 ∧
      c.binding.2.isOk = (walk (bindClient env.subnet c.leases) agent.allocator
        (c.entries.flatMap (·.clients))).2.isOk :=
  bindMembers_eq env.subnet c.leases agent.allocator c.entries

/-- The loop gives free hosts to keys that hold no address. -/
theorem evolves_walk (net : Subnet) (leases : List (String × String)) (a : Allocator)
    (cs : List ClientRecord) : a.Evolves net (walk (bindClient net leases) a cs).1 := by
  exact walk_bind_preserves (fun b hb c _ ip _ hNone hFree =>
    hb.tail (.bind c.wgPublicKey ip hNone hFree)) .refl

/-- The loop never binds the empty key. -/
theorem keyless_walk (net : Subnet) (leases : List (String × String))
    (hKeyless : a.allocated.lookup "" = none) (cs : List ClientRecord) :
    (walk (bindClient net leases) a cs).1.allocated.lookup "" = none := by
  refine walk_bind_preserves (P := fun b : Allocator => b.allocated.lookup "" = none)
    (fun b hb c _ ip hKey _ _ => ?_) hKeyless
  rw [Allocator.lookup_bind, if_neg (Ne.symm hKey), hb]

/-- The second record is the first with the address its key is bound to; without a key it is
the first. -/
def BoundTo (a : Allocator) (c d : ClientRecord) : Prop :=
  (c.wgPublicKey = "" → d = c) ∧
    (c.wgPublicKey ≠ "" → ∃ ip, a.allocated.lookup c.wgPublicKey = some ip ∧
      d = { c with tunnelIP := ip })

/-- The records of the second row are those of the first with their addresses. -/
def RowBoundTo (a : Allocator) (m n : MemberACLEntry) : Prop :=
  n = { m with clients := n.clients } ∧ List.Forall₂ (BoundTo a) m.clients n.clients

theorem BoundTo.mono {b : Allocator} (h : BoundTo a c d)
    (hKeeps : ∀ ip, c.wgPublicKey ≠ "" → a.allocated.lookup c.wgPublicKey = some ip →
      b.allocated.lookup c.wgPublicKey = some ip) : BoundTo b c d := by
  refine ⟨h.1, fun hKey => ?_⟩
  obtain ⟨ip, hHeld, hd⟩ := h.2 hKey
  exact ⟨ip, hKeeps ip hKey hHeld, hd⟩

theorem boundTo_bindClient (h : (bindClient net leases a c).2 = .ok d) :
    BoundTo (bindClient net leases a c).1 c d := by
  have hCase := bindClient_cases net leases a c
  generalize bindClient net leases a c = out at hCase h ⊢
  cases hCase with
  | keyless hKey =>
      cases h
      exact ⟨fun _ => rfl, fun hNe => absurd hKey hNe⟩
  | held ip hKey hHeld =>
      cases h
      exact ⟨fun hEmpty => absurd hEmpty hKey, fun _ => ⟨ip, hHeld, rfl⟩⟩
  | taken ip hKey hNone hFree =>
      cases h
      refine ⟨fun hEmpty => absurd hEmpty hKey, fun _ => ⟨ip, ?_, rfl⟩⟩
      dsimp only
      rw [Allocator.lookup_bind, if_pos rfl]
  | exhausted e hKey hNone hFree => cases h

/-- After the loop every record has the address its key is bound to. -/
theorem boundTo_bindMembers (h : (bindMembers net leases a ms).2 = .ok bound) :
    List.Forall₂ (RowBoundTo (bindMembers net leases a ms).1) ms bound := by
  refine walk_forall₂ (P := fun _ => True) (R := RowBoundTo) (fun _ _ _ _ => trivial)
    (fun b _ m _ n hn => ?_) (fun b _ m _ _ n hn => ?_) trivial h
  · -- One row: the records of its own loop.
    obtain ⟨hWalk, hRow⟩ := bindMember_eq_ok hn
    refine ⟨hRow, walk_forall₂ (P := fun _ => True) (R := BoundTo) (fun _ _ _ _ => trivial)
      (fun b _ c _ d hd => boundTo_bindClient hd) (fun b _ c _ _ d hd => ?_) trivial hWalk⟩
    exact hd.mono fun ip _ => keeps_bindClient net leases b c _ ip
  · exact ⟨hn.1, hn.2.imp fun _ _ hcd => hcd.mono fun ip _ => keeps_walk net leases b m.clients _ ip⟩

/-- A key that is bound stays as it is. -/
theorem bindClient_of_boundTo (net : Subnet) (leases : List (String × String)) (h : BoundTo a c d) :
    bindClient net leases a c = (a, .ok d) := by
  have hCase := bindClient_cases net leases a c
  generalize bindClient net leases a c = out at hCase ⊢
  cases hCase with
  | keyless hKey => rw [h.1 hKey]
  | held ip hKey hHeld =>
      obtain ⟨ip', hHeld', hd⟩ := h.2 hKey
      rw [hd, Option.some.inj (hHeld.symm.trans hHeld')]
  | taken ip hKey hNone hFree =>
      obtain ⟨_, hHeld, _⟩ := h.2 hKey
      cases hNone.symm.trans hHeld
  | exhausted e hKey hNone hFree =>
      obtain ⟨_, hHeld, _⟩ := h.2 hKey
      cases hNone.symm.trans hHeld

/-- The loop over rows whose keys are all bound fills in the addresses and does nothing
else. -/
theorem bindMembers_of_boundTo (net : Subnet) (leases : List (String × String))
    (h : List.Forall₂ (RowBoundTo a) ms bound) : bindMembers net leases a ms = (a, .ok bound) := by
  refine walk_of_fixed (h.imp fun m n hRow => ?_)
  have hWalk := walk_of_fixed (hRow.2.imp fun c d => bindClient_of_boundTo net leases)
  rw [bindMember, hWalk]
  exact Prod.ext rfl (congrArg Except.ok hRow.1.symm)

/-- The record has the address its key is bound to; without a key it has none. -/
def Holds (a : Allocator) (d : ClientRecord) : Prop :=
  (d.wgPublicKey = "" → d.tunnelIP = "") ∧
    (d.wgPublicKey ≠ "" → a.allocated.lookup d.wgPublicKey = some d.tunnelIP)

theorem BoundTo.holds (h : BoundTo a c d) (hBlank : c.tunnelIP = "") : Holds a d := by
  by_cases hKey : c.wgPublicKey = ""
  · rw [h.1 hKey]
    exact ⟨fun _ => hBlank, fun hNe => absurd hKey hNe⟩
  · obtain ⟨ip, hHeld, rfl⟩ := h.2 hKey
    exact ⟨fun hEmpty => absurd hEmpty hKey, fun _ => hHeld⟩

theorem holds_bindMembers (hBlank : ∀ m ∈ ms, ∀ c ∈ m.clients, c.tunnelIP = "")
    (h : (bindMembers net leases a ms).2 = .ok bound) :
    ∀ n ∈ bound, ∀ d ∈ n.clients, Holds (bindMembers net leases a ms).1 d := by
  intro n hn d hd
  obtain ⟨m, hm, hRow⟩ := exists_left (boundTo_bindMembers h) hn
  obtain ⟨c, hc, hBound⟩ := exists_left hRow.2 hd
  exact hBound.holds (hBlank m hm c hc)

end Tunnel
