import Foctet.Lib.Lists
import Foctet.Net.Authentication

/-! The order in which `connect_node` tries the addresses of a node: by the protocols in the
order in which the builder was told of them, then by reachability, then as they stand in the
set; each address once. -/
namespace Foctet.Net
open Foctet.Core Foctet.Lib

variable {A : Type} {S : StackAddrs A} {generate : Nat → Keypair → Option (List UInt8)}

/-- An address that `connect_node` may dial on the transport of the kind: it has an IP, not
a loopback one unless these are allowed, and names a transport of that kind, which is enabled. -/
structure Usable (S : StackAddrs A) (enabled : List TransportKind) (allowLoopback : Bool)
    (kind : TransportKind) (a : A) : Prop where
  ip : ∃ ip, S.ip a = some ip ∧ (ip.isLoopback → allowLoopback)
  transport : S.kind a = some kind
  enabled : kind ∈ enabled

/-- The one is tried before the other: its protocol was added first, or the protocols are
the same and it has the higher rank, or the ranks are equal too and it comes first in the set. -/
def Sooner (S : StackAddrs A) [DecidableEq A] (added : List TransportKind) (iface : Interface)
    (addresses : List A) (x y : TransportKind × A) : Prop :=
  ∃ ip other, S.ip x.2 = some ip ∧ S.ip y.2 = some other ∧
    (added.idxOf x.1 < added.idxOf y.1 ∨ x.1 = y.1 ∧
      (rankIp ip iface > rankIp other iface ∨ rankIp ip iface = rankIp other iface ∧
        addresses.idxOf x.2 < addresses.idxOf y.2))

/-- What is asked of the order of trying. -/
structure TryingOrder (S : StackAddrs A) [DecidableEq A] (added : List TransportKind)
    (allowLoopback : Bool) (iface : Interface) (addresses : List A)
    (order : List (TransportKind × A)) : Prop where
  usable : ∀ kind a, (kind, a) ∈ order ↔ a ∈ addresses ∧ Usable S added allowLoopback kind a
  once : (order.map Prod.snd).Nodup
  sorted : order.Pairwise (Sooner S added iface addresses)

/-- `get_direct_addrs` pairs kinds with protocols as `from_protocol` does. -/
theorem usesTransport_iff {kind : TransportKind} {a : A} :
    NodeAddr.usesTransport S kind a = true ↔ S.kind a = some kind := by
  unfold NodeAddr.usesTransport StackAddrs.kind
  cases S.transport a with
  | none => cases kind <;> simp
  | some transport => cases kind <;> cases transport <;> simp [TransportKind.fromProtocol]

theorem mem_getDirectAddrs {addr : NodeAddr A} {kind : TransportKind} {allowLoopback : Bool} {a : A} :
    a ∈ addr.getDirectAddrs S kind allowLoopback ↔
      a ∈ addr.addresses ∧ (∃ ip, S.ip a = some ip ∧ (ip.isLoopback → allowLoopback)) ∧
        S.kind a = some kind := by
  rw [NodeAddr.getDirectAddrs, List.mem_filter, ← usesTransport_iff]
  cases S.ip a with
  | none => simp
  | some ip => cases allowLoopback <;> cases loopback : ip.isLoopback <;> simp [loopback]

theorem mem_sortAddrsByReachability {addrs : List A} {iface : Interface} {a : A} :
    a ∈ sortAddrsByReachability S addrs iface ↔ a ∈ addrs ∧ ∃ ip, S.ip a = some ip := by
  simp [sortAddrsByReachability, ranked]

theorem mem_ranked {addrs : List A} {iface : Interface} {p : A × Nat}
    (there : p ∈ ranked S addrs iface) : ∃ ip, S.ip p.1 = some ip ∧ rankIp ip iface = p.2 := by
  obtain ⟨a, -, named⟩ := List.mem_filterMap.mp there
  obtain ⟨ip, has, rfl⟩ := Option.map_eq_some_iff.mp named
  exact ⟨ip, has, rfl⟩

section
variable [DecidableEq A]

/-- The sort is stable, so addresses of equal rank stay in the order of the set. -/
theorem sorted_sortAddrsByReachability {addrs addresses : List A} {iface : Interface}
    {added : List TransportKind} (kind : TransportKind) (nodup : addresses.Nodup)
    (part : addrs.Sublist addresses) :
    (sortAddrsByReachability S addrs iface).Pairwise fun x y =>
      Sooner S added iface addresses (kind, x) (kind, y) := by
  have places : addrs.Pairwise fun x y => addresses.idxOf x < addresses.idxOf y :=
    (FirstAppearances.of_nodup nodup).order.sublist part
  have came : (ranked S addrs iface).Pairwise fun x y =>
      addresses.idxOf x.1 < addresses.idxOf y.1 := by
    rw [ranked, List.pairwise_filterMap]
    apply places.imp
    rintro x y before p first q second
    obtain ⟨ip, -, rfl⟩ := Option.map_eq_some_iff.mp first
    obtain ⟨other, -, rfl⟩ := Option.map_eq_some_iff.mp second
    exact before
  rw [sortAddrsByReachability, List.pairwise_map]
  apply (stable_insertionSort (r := fun x y => y.2 ≤ x.2) came).imp_of_mem
  rintro x y x_there y_there ⟨ranks, before⟩
  obtain ⟨ip, has, rank⟩ := mem_ranked ((List.mem_insertionSort _).mp x_there)
  obtain ⟨other, has', rank'⟩ := mem_ranked ((List.mem_insertionSort _).mp y_there)
  refine ⟨ip, other, has, has', .inr ⟨rfl, ?_⟩⟩
  rw [rank, rank']
  rcases Nat.lt_or_eq_of_le ranks with less | same
  · exact .inl less
  · exact .inr ⟨same.symm, before (Nat.le_of_eq same.symm)⟩

variable {added protocols : List TransportKind} {addr : NodeAddr A} {allowLoopback : Bool}
  {iface : Interface}

omit [DecidableEq A] in
theorem mem_tried (first : FirstAppearances added protocols) (kind : TransportKind) (a : A) :
    (kind, a) ∈ tried S addr allowLoopback iface protocols ↔
      a ∈ addr.addresses ∧ Usable S added allowLoopback kind a := by
  simp only [tried, List.mem_flatMap, List.mem_map, Prod.mk.injEq, mem_sortAddrsByReachability,
    mem_getDirectAddrs, first.mem_iff]
  constructor
  · rintro ⟨proto, enabled, b, ⟨⟨there, ip, transport⟩, -⟩, rfl, rfl⟩
    exact ⟨there, ip, transport, enabled⟩
  · rintro ⟨there, ⟨ip, has, allowed⟩, transport, enabled⟩
    exact ⟨kind, enabled, a, ⟨⟨there, ⟨ip, has, allowed⟩, transport⟩, ip, has⟩, rfl, rfl⟩

theorem sorted_tried (first : FirstAppearances added protocols) :
    (tried S addr allowLoopback iface protocols).Pairwise (Sooner S added iface addr.addresses) := by
  rw [tried, List.pairwise_flatMap]
  constructor
  · intro proto _
    rw [List.pairwise_map]
    exact sorted_sortAddrsByReachability proto addr.nodup List.filter_sublist
  · apply first.order.imp
    intro proto later before x x_there y y_there
    obtain ⟨a, a_there, rfl⟩ := List.mem_map.mp x_there
    obtain ⟨b, b_there, rfl⟩ := List.mem_map.mp y_there
    obtain ⟨-, ip, has⟩ := mem_sortAddrsByReachability.mp a_there
    obtain ⟨-, other, has'⟩ := mem_sortAddrsByReachability.mp b_there
    exact ⟨ip, other, has, has', .inl before⟩

theorem tryingOrder_tried (first : FirstAppearances added protocols) :
    TryingOrder S added allowLoopback iface addr.addresses (tried S addr allowLoopback iface protocols) := by
  refine ⟨mem_tried first, ?_, sorted_tried first⟩
  rw [List.nodup_iff_pairwise_ne, List.pairwise_map]
  apply (sorted_tried first).imp_of_mem
  -- an address has one kind only, and is not sooner than itself
  rintro ⟨kind, a⟩ ⟨later, b⟩ a_there b_there ⟨ip, other, has, has', lex⟩ rfl
  have named := ((mem_tried first kind a).mp a_there).2.transport
  have again := ((mem_tried first later a).mp b_there).2.transport
  obtain rfl := Option.some.inj (named.symm.trans again)
  obtain rfl := Option.some.inj (has.symm.trans has')
  rcases lex with less | ⟨-, less | ⟨-, less⟩⟩ <;> exact absurd less (Nat.lt_irrefl _)

namespace EndpointBuilder
variable {b b' : EndpointBuilder A}

theorem apply_protocols {call : BuilderCall A} (applied : b.apply S generate call = .ok b')
    {added : List TransportKind} (first : FirstAppearances added b.protocols) :
    FirstAppearances (added ++ (call.adds S).toList) b'.protocols := by
  rw [(apply_applied applied).protocols]
  cases call.adds S with
  | none => rwa [Option.toList_none, List.append_nil]
  | some proto =>
      rw [Option.toList_some, Option.elim_some, pushProtocol_protocols]
      exact first.push proto

/-- The protocols of a builder stand in the order in which its calls first added them. -/
theorem applyAll_protocols {calls : List (BuilderCall A)} (ran : calls.foldlM (apply S generate) b = .ok b')
    {added : List TransportKind} (first : FirstAppearances added b.protocols) :
    FirstAppearances (added ++ calls.filterMap (BuilderCall.adds S)) b'.protocols := by
  induction calls generalizing b added with
  | nil =>
      obtain rfl := Outcome.ok.inj ran
      rwa [List.filterMap_nil, List.append_nil]
  | cons call calls ih =>
      rw [List.foldlM_cons] at ran
      obtain ⟨next, applied, rest⟩ := Outcome.bind_eq_ok.mp ran
      have all := ih rest (apply_protocols applied first)
      cases adds : call.adds S with
      | none =>
          rw [adds, Option.toList_none, List.append_nil] at all
          rwa [List.filterMap_cons_none adds]
      | some proto =>
          rw [adds, Option.toList_some, List.append_assoc] at all
          rwa [List.filterMap_cons_some adds]

end EndpointBuilder

/-- How an attempt ends, if `connect` says so. -/
def attempted (b : EndpointBuilder A)
    (connect : Transport → A → Except AnyhowError (Connection A × Transport))
    (candidate : TransportKind × A) : Except AnyhowError (Connection A × Transport) :=
  connect (EndpointBuilder.transportOf b.config candidate.1) candidate.2

section
variable {b : EndpointBuilder A} {builtOn : Option Interface}
  {connect : Transport → A → Except AnyhowError (Connection A × Transport)}

theorem dial_err (builtOn : Option Interface) {candidate : TransportKind × A}
    (enabled : candidate.1 ∈ b.protocols)
    (fails : ∃ error, attempted b connect candidate = .error error) :
    ∃ error, (b.build S builtOn).1.dial (fun t a => .ofExcept (connect t a)) candidate = .err error := by
  obtain ⟨error, failed⟩ := fails
  rw [attempted] at failed
  rw [Endpoint.dial, EndpointBuilder.build_transport builtOn enabled]
  simp only [Outcome.okOr, Outcome.ok_bind, failed, Outcome.ofExcept, Outcome.err_bind]
  exact ⟨error, rfl⟩

theorem dial_ok (builtOn : Option Interface) {candidate : TransportKind × A} {conn : Connection A}
    {t : Transport} (enabled : candidate.1 ∈ b.protocols)
    (succeeds : attempted b connect candidate = .ok (conn, t)) :
    ∃ e, (b.build S builtOn).1.dial (fun t a => .ofExcept (connect t a)) candidate = .ok (conn, e) := by
  rw [attempted] at succeeds
  rw [Endpoint.dial, EndpointBuilder.build_transport builtOn enabled]
  simp only [Outcome.okOr, Outcome.ok_bind, succeeds, Outcome.ofExcept]
  exact ⟨_, rfl⟩

theorem dialNode_built (kept : b.Kept) :
    (b.build S builtOn).1.dialNode S (fun t a => .ofExcept (connect t a)) (.ok iface) addr =
      let dialled := Logged.firstOk id ((b.build S builtOn).1.dial fun t a => .ofExcept (connect t a))
        (tried S addr b.allowLoopback iface b.protocols)
      ⟨dialled.log, dialled.outcome >>=
        Outcome.okOr (.message "No direct address found for node")⟩ := by
  rw [(EndpointBuilder.build_wellBuilt kept builtOn).dialNode_eq, Logged.bind_silent,
    Endpoint.candidates, EndpointBuilder.build_priorities kept]
  rfl

theorem dialNode_of_failures (kept : b.Kept)
    (fail : ∀ c ∈ tried S addr b.allowLoopback iface b.protocols,
      ∃ error, attempted b connect c = .error error) :
    (b.build S builtOn).1.dialNode S (fun t a => .ofExcept (connect t a)) (.ok iface) addr =
      ⟨tried S addr b.allowLoopback iface b.protocols,
        .err (.message "No direct address found for node")⟩ := by
  have errors := fun c there => dial_err (S := S) builtOn (tried_proto there) (fail c there)
  rw [dialNode_built kept, Logged.firstOk_of_errors errors, List.map_id]
  rfl

theorem dialNode_of_success (kept : b.Kept) {before after : List (TransportKind × A)}
    {c : TransportKind × A} {conn : Connection A} {t : Transport}
    (order : tried S addr b.allowLoopback iface b.protocols = before ++ c :: after)
    (fail : ∀ earlier ∈ before, ∃ error, attempted b connect earlier = .error error)
    (success : attempted b connect c = .ok (conn, t)) :
    ∃ e, (b.build S builtOn).1.dialNode S (fun t a => .ofExcept (connect t a)) (.ok iface) addr =
      ⟨before ++ [c], .ok (conn, e)⟩ := by
  have enabled : ∀ x ∈ before ++ c :: after, x.1 ∈ b.protocols := fun x there =>
    tried_proto (order ▸ there)
  obtain ⟨e, connected⟩ := dial_ok (S := S) builtOn (enabled c (by simp)) success
  have errors := fun x there =>
    dial_err (S := S) builtOn (enabled x (List.mem_append_left _ there)) (fail x there)
  refine ⟨e, ?_⟩
  rw [dialNode_built kept, order, Logged.firstOk_of_success errors connected, List.map_id]
  rfl

end

/-- For every function that says how attempts end, `connect_node` on an endpoint that the
builder made tries the usable addresses in their order, each once, up to the first success.
It returns that success, and an error exactly if there is none. -/
theorem connect_node_tries_in_order (S : StackAddrs A) (generate : Nat → Keypair → Option (List UInt8))
    (draw : Nat) (keypair : Keypair) (start b : EndpointBuilder A) (calls : List (BuilderCall A))
    (builtOn : Option Interface) (iface : Interface) (addr : NodeAddr A)
    (connect : Transport → A → Except AnyhowError (Connection A × Transport))
    (started : EndpointBuilder.new generate draw keypair = .ok start ∨
      EndpointBuilder.default S generate draw keypair = .ok start)
    (called : calls.foldlM (EndpointBuilder.apply S generate) start = .ok b) :
    ∃ order log outcome,
      (b.build S builtOn).1.dialNode S (fun t a => .ofExcept (connect t a)) (.ok iface) addr =
        ⟨log, outcome⟩ ∧
      TryingOrder S (start.protocols ++ calls.filterMap (BuilderCall.adds S)) b.allowLoopback iface
        addr.addresses order ∧
      ((∀ c ∈ order, ∃ error, attempted b connect c = .error error) ∧ log = order ∨
        ∃ before c after conn t, order = before ++ c :: after ∧
          (∀ earlier ∈ before, ∃ error, attempted b connect earlier = .error error) ∧
          attempted b connect c = .ok (conn, t) ∧ log = before ++ [c] ∧
          ∃ e, outcome = .ok (conn, e)) ∧
      ((∃ error, outcome = .err error) ↔
        ∀ c ∈ order, ∃ error, attempted b connect c = .error error) ∧
      outcome ≠ .err (.message "Transport not found") := by
  have kept : b.Kept := EndpointBuilder.Reachable.kept ⟨draw, keypair, start, calls, started, called⟩
  have nodup : start.protocols.Nodup :=
    (EndpointBuilder.Reachable.kept ⟨draw, keypair, start, [], started, rfl⟩).nodup
  have first := EndpointBuilder.applyAll_protocols called (FirstAppearances.of_nodup nodup)
  rcases forall_or_first (fun c => ∃ error, attempted b connect c = .error error)
      (tried S addr b.allowLoopback iface b.protocols) with fail | ⟨before, c, after, order, fail, success⟩
  · refine ⟨_, _, _, dialNode_of_failures kept fail, tryingOrder_tried first, .inl ⟨fail, rfl⟩, ?_, ?_⟩
    · exact iff_of_true ⟨_, rfl⟩ fail
    · simp
  · cases ended : attempted b connect c with
    | error error => exact absurd ⟨error, ended⟩ success
    | ok result =>
        obtain ⟨e, dialled⟩ := dialNode_of_success kept order fail ended
        refine ⟨_, _, _, dialled, tryingOrder_tried first, ?_, ?_, nofun⟩
        · exact .inr ⟨before, c, after, result.1, result.2, order, fail, ended, rfl, e, rfl⟩
        · refine iff_of_false nofun fun all => success (all c ?_)
          exact order ▸ List.mem_append_right _ List.mem_cons_self

namespace Sample

/-- `/ip4/192.168.1.9/tcp/4432/tls`, in the network of the interface. -/
def near : List Protocol := [.Ip4 ⟨192, 168, 1, 9⟩, .Tcp 4432, .Tls]

theorem several_nodup : [dialledQuic, dialled, near].Nodup := by decide

def severalAddrs : NodeAddr (List Protocol) := ⟨nodeId, [dialledQuic, dialled, near], several_nodup⟩

/-- `EndpointBuilder::new().with_tcp().with_quic()` -/
def bothKinds : EndpointBuilder (List Protocol) := { builder with protocols := [.TlsOverTcp, .Quic] }

def outgoing : Connection (List Protocol) :=
  .Tcp ⟨.Outgoing, dialled, dialled, nodeId, nodeId, 16384, 16384⟩ 1

/-- Only one address can be reached. -/
def reaching (t : Transport) (a : List Protocol) :
    Except AnyhowError (Connection (List Protocol) × Transport) :=
  if a = dialled then .ok (outgoing, t) else .error (.message "refused")

end Sample

/-- The last of three addresses is nearest and refuses, the second is reached, and the first is
left for the other protocol. -/
theorem connect_node_tries_in_order_second : ∃ order e,
    (Sample.bothKinds.build Sample.stackAddrs (some Sample.interface)).1.dialNode Sample.stackAddrs
        (fun t a => .ofExcept (Sample.reaching t a)) (.ok Sample.interface) Sample.severalAddrs =
      ⟨[(.TlsOverTcp, Sample.near), (.TlsOverTcp, Sample.dialled)], .ok (Sample.outgoing, e)⟩ ∧
    TryingOrder Sample.stackAddrs [.TlsOverTcp, .Quic] false Sample.interface
      Sample.severalAddrs.addresses order ∧
    [(.TlsOverTcp, Sample.near), (.TlsOverTcp, Sample.dialled)] <+: order ∧
    (.Quic, Sample.dialledQuic) ∈ order := by
  obtain ⟨order, log, outcome, dialled, tried, ended, -, -⟩ := connect_node_tries_in_order
    Sample.stackAddrs Sample.generate 0 ⟨Sample.nodeId⟩ _ Sample.bothKinds [.withTcp, .withQuic]
    (some Sample.interface) Sample.interface Sample.severalAddrs Sample.reaching (.inl rfl) rfl
  have calls : ((Sample.bothKinds.build Sample.stackAddrs (some Sample.interface)).1.dialNode
      Sample.stackAddrs (fun t a => .ofExcept (Sample.reaching t a)) (.ok Sample.interface)
      Sample.severalAddrs).log = [(.TlsOverTcp, Sample.near), (.TlsOverTcp, Sample.dialled)] := by
    decide +kernel
  have logged : log = [(.TlsOverTcp, Sample.near), (.TlsOverTcp, Sample.dialled)] := by
    rw [← calls, dialled]
  have usable : ∀ kind a, a ∈ Sample.severalAddrs.addresses → Sample.stackAddrs.kind a = some kind →
      (∃ ip, Sample.stackAddrs.ip a = some ip ∧ (ip.isLoopback → false)) →
      kind ∈ [TransportKind.TlsOverTcp, TransportKind.Quic] → (kind, a) ∈ order :=
    fun kind a there named ip enabled => (tried.usable kind a).mpr ⟨there, ip, named, enabled⟩
  rcases ended with ⟨fail, -⟩ | ⟨before, c, after, conn, t, rfl, -, success, same, e, rfl⟩
  · obtain ⟨error, refused⟩ := fail _ (usable .TlsOverTcp Sample.dialled (by decide) rfl
      ⟨_, rfl, by decide⟩ (by decide))
    cases refused
  · have last : c = (.TlsOverTcp, Sample.dialled) := by
      have ends := congrArg List.getLast? (same.symm.trans logged)
      simpa using ends
    obtain rfl : Sample.outgoing = conn := by
      rw [last] at success
      injection success with both
      exact congrArg Prod.fst both
    refine ⟨_, e, by rw [dialled, logged], tried, ⟨after, ?_⟩, ?_⟩
    · rw [← logged, same, List.append_assoc]
      rfl
    · exact usable .Quic Sample.dialledQuic (by decide) rfl ⟨_, rfl, by decide⟩ (by decide)

end

end Foctet.Net
