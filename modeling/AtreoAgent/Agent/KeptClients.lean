import AtreoAgent.Acl.Upsert
import AtreoAgent.Agent.StoreCalls

/-! Upserts in a store that has been used. Whatever was called before, no row behind the one
an address is found at has the address, so an upsert that leaves the address in its row
leaves it to be found. -/
namespace Lifecycle

open Codec Atreolink Acl Store Machine

/-- Rows rewritten one by one to rows with fewer clients. -/
theorem lastIndexed_map {s : Store} (h : s.LastIndexed) {f : MemberACLEntry → MemberACLEntry}
    (hFewer : ∀ m, ∀ c ∈ (f m).clients, c ∈ m.clients) {t : Store}
    (hIndex : t.byTunnelIP = s.byTunnelIP) (hRows : t.members = s.members.map f) :
    t.LastIndexed := by
  refine h.of_rows hIndex fun j m hRow => ?_
  rw [hRows, List.getElem?_map] at hRow
  obtain ⟨old, hOld, rfl⟩ := Option.map_eq_some_iff.mp hRow
  exact ⟨old, hOld, hFewer old⟩

/-- Every call rebuilds the indexes, or only takes clients away. -/
theorem StoreOp.lastIndexed {s : Store} (h : s.LastIndexed) (op : StoreOp) :
    (op.apply s).LastIndexed := by
  cases op with
  | addClient memberID rec =>
      rw [StoreOp.apply]
      rcases hAdd : s.addClient memberID rec with ⟨t, known⟩
      cases known with
      | true => exact (Coherent.addClient hAdd).lastIndexed
      | false =>
          rcases addClient_eq_false hAdd with ⟨_, rfl⟩ | ⟨_, rfl⟩
          · exact h
          · refine lastIndexed_map h (f := strip memberID rec) (fun m c hc => ?_) rfl rfl
            rw [strip] at hc
            split at hc
            · exact hc
            · exact (List.mem_filter.mp hc).1
  | replaceAll members =>
      rw [StoreOp.apply, Store.replaceAll]
      cases s.validateAdminPin members with
      | error e => exact h
      | ok u => exact (coherent_rebuildIndexes _).lastIndexed
  | reconcile members apps =>
      rw [StoreOp.apply, Store.reconcile]
      cases s.validateAdminPin members with
      | error e => exact h
      | ok u => exact (coherent_rebuildIndexes _).lastIndexed
  | upsertMember member =>
      rw [StoreOp.apply, Store.upsertMember]
      cases s.validateAdminPin [member] with
      | error e => exact h
      | ok u => exact (coherent_rebuildIndexes _).lastIndexed
  | setAllowedApps memberID apps =>
      rw [StoreOp.apply, Store.setAllowedApps]
      split
      · exact (coherent_rebuildIndexes _).lastIndexed
      · exact h
  | setMemberStatus memberID status =>
      rw [StoreOp.apply, Store.setMemberStatus]
      split
      · exact (coherent_rebuildIndexes _).lastIndexed
      · exact h
  | removeClient memberID wgPublicKey =>
      rw [StoreOp.apply]
      rcases hRemove : s.removeClient memberID wgPublicKey with ⟨t, removed⟩
      cases removed with
      | false =>
          rw [removeClient_eq_false hRemove]
          exact h
      | true =>
          rw [Store.removeClient] at hRemove
          split at hRemove
          · cases hRemove
          · dsimp only at hRemove
            split at hRemove
            · cases hRemove
              exact (coherent_rebuildIndexes _).lastIndexed
            · cases hRemove
  | setAppDefinitions apps =>
      refine lastIndexed_map h ?_ rfl rfl
      exact fun _ _ hc => hc
  | removeAppByID appID =>
      refine lastIndexed_map h ?_ rfl rfl
      exact fun _ _ hc => hc
  | removeMember memberID => exact (coherent_rebuildIndexes _).lastIndexed
  | setAppliedGeneration gen appliedAt => exact h
  | dropMembersFailing accepts =>
      rw [StoreOp.apply, Store.dropMembersFailing]
      split
      · exact h
      · exact (coherent_rebuildIndexes _).lastIndexed
  | setPinnedAdminPublicKey pub =>
      rw [StoreOp.apply, Store.setPinnedAdminPublicKey]
      split
      · split
        · exact h
        · exact h
      · exact h
  | clearPinnedAdminPublicKey => exact h

/-- A store that starts coherent, after any calls: an upsert over a row of the member keeps its
clients just if each incoming record carries what it leaves blank. -/
theorem upsert_keeps_clients_iff {start : Store} (hStart : start.Coherent) (ops : List StoreOp)
    {member existing : MemberACLEntry} {t : Store}
    (hFound : (run StoreOp.apply start ops).members.find? (·.memberID = member.memberID) =
      some existing)
    (hUpsert : (run StoreOp.apply start ops).upsertMember member = .ok t) :
    ∃ row, t.members.find? (·.memberID = member.memberID) = some row ∧
      (KeepsClients (run StoreOp.apply start ops) t existing member row ↔
        ∀ c ∈ member.clients, Carried existing.clients c) := by
  have hIndex : (run StoreOp.apply start ops).LastIndexed :=
    invariant_always LastIndexed (fun _ op h => op.lastIndexed h) hStart.lastIndexed ops
  refine ⟨mergeMember existing member, ?_, keepsClients_iff hIndex hFound hUpsert⟩
  rw [upsertMember_eq hFound hUpsert]
  exact find?_updateFirst hFound (decide_eq_true (mergeMember_memberID existing member))

/-- A member whose client has addresses of both families. -/
def dualHolder : MemberACLEntry :=
  { phoneHolder with
    clients := [{ wgPublicKey := "phone", tunnelIP := "100.64.0.2", tunnelIPv6 := "fd00::2" }] }

/-- The same client as the coordination service sends it, without its addresses. -/
def replayed : MemberACLEntry := { phoneHolder with clients := [{ wgPublicKey := "phone" }] }

/-- The store with the member alone. -/
def dualStore : Store := (StoreOp.upsertMember dualHolder).apply Store.new

/-- A record that names its IPv6 address keeps everything. -/
theorem upsert_keeps_named_ipv6 :
    ∃ t row, dualStore.upsertMember { phoneHolder with
        clients := [{ wgPublicKey := "phone", tunnelIPv6 := "fd00::2" }] } = .ok t ∧
      KeepsClients dualStore t dualHolder { phoneHolder with
        clients := [{ wgPublicKey := "phone", tunnelIPv6 := "fd00::2" }] } row := by
  obtain ⟨t, hUpsert⟩ : ∃ t, dualStore.upsertMember { phoneHolder with
      clients := [{ wgPublicKey := "phone", tunnelIPv6 := "fd00::2" }] } = .ok t := ⟨_, rfl⟩
  have hFound : dualStore.members.find? (·.memberID = "m") = some dualHolder := rfl
  obtain ⟨row, _, hIff⟩ :=
    upsert_keeps_clients_iff coherent_new [.upsertMember dualHolder] hFound hUpsert
  refine ⟨t, row, hUpsert, hIff.mpr ?_⟩
  simp [Carried, dualHolder]

/-- The client is sent again without its addresses: it loses the IPv6 one, which `AddClient`
would keep, and the address is found no longer. -/
theorem upsert_drops_ipv6 :
    (dualStore.lookupByTunnelIP "fd00::2").map (·.memberID) = some "m" ∧
    (((StoreOp.upsertMember replayed).apply dualStore).members.map (·.clients)) =
      [[{ wgPublicKey := "phone", tunnelIP := "100.64.0.2" }]] ∧
    ((dualStore.addClient "m" { wgPublicKey := "phone" }).1.members.map (·.clients)) =
      [dualHolder.clients] ∧
    (((StoreOp.upsertMember replayed).apply dualStore).lookupByTunnelIP "fd00::2").isNone = true := by
  decide +kernel

end Lifecycle
