import Foctet.Lib.Logged
import Foctet.Net.Endpoint

/-! `connect_node`, with a log of its calls of `connect`. The two loops try the candidates of
the endpoint one after another, up to the first that succeeds. -/
namespace Foctet.Net
open Foctet.Core Foctet.Lib

variable {A : Type} (S : StackAddrs A)

namespace Endpoint

/-- The outer loop of `connect_node`, over the values of the priority map, for any `connect` of
the transports. In the inner one an error is logged and the next address is tried. An entry of
the log is the protocol and the address of a call. -/
def dialProtos (connect : Transport → A → Outcome AnyhowError (Connection A × Transport))
    (e : Endpoint A) (iface : Interface) (addr : NodeAddr A) :
    List TransportKind → Logged (TransportKind × A) AnyhowError (Connection A × Endpoint A)
  | [] => .silent (.err (.message "No direct address found for node"))
  | proto :: rest => do
      let t ← .silent (Outcome.okOr (.message "Transport not found") (e.transports.get proto))
      let addrs := addr.getDirectAddrs S proto e.allowLoopback
      let sortedAddrs := sortAddrsByReachability S addrs iface
      match ← Logged.firstOk (proto, ·) (connect t) sortedAddrs with
      | some (conn, t) => return (conn, { e with transports := e.transports.insert proto t })
      | none => dialProtos connect e iface addr rest

def dialNode (connect : Transport → A → Outcome AnyhowError (Connection A × Transport))
    (e : Endpoint A) (defaultInterface : Except String Interface) (addr : NodeAddr A) :
    Logged (TransportKind × A) AnyhowError (Connection A × Endpoint A) :=
  match defaultInterface with
  | .ok iface => e.dialProtos S connect iface addr (e.priorityMap.map Prod.snd)
  | .error text => .silent (.err (.message ("Failed to get default interface: " ++ text.quote)))

/-- One call of `connect`, with the endpoint it leaves behind. -/
def dial (connect : Transport → A → Outcome AnyhowError (Connection A × Transport))
    (e : Endpoint A) (candidate : TransportKind × A) : Outcome AnyhowError (Connection A × Endpoint A) := do
  let t ← Outcome.okOr (.message "Transport not found") (e.transports.get candidate.1)
  let result ← connect t candidate.2
  return (result.1, { e with transports := e.transports.insert candidate.1 result.2 })

/-- What `connect_node` returns. What the network does at each address is given; an address is in
the set once, so no address is asked for twice. -/
def connectNode (C : Crates) (e : Endpoint A) (network : A → Attempt)
    (defaultInterface : Except String Interface) (addr : NodeAddr A) :
    Outcome AnyhowError (Connection A × Endpoint A) :=
  (e.dialNode S (fun t a => t.connect S C (network a) a) defaultInterface addr).outcome

variable {S} {connect : Transport → A → Outcome AnyhowError (Connection A × Transport)}
  {e : Endpoint A} {iface : Interface} {addr : NodeAddr A}

/-- The two loops together try the candidates in their order. -/
theorem dialProtos_eq {protos : List TransportKind}
    (found : ∀ proto ∈ protos, ∃ t, e.transports.get proto = some t) :
    e.dialProtos S connect iface addr protos =
      Logged.firstOk id (e.dial connect) (tried S addr e.allowLoopback iface protos) >>=
      fun result => .silent (Outcome.okOr (.message "No direct address found for node") result) := by
  induction protos with
  | nil => rfl
  | cons proto protos ih =>
      obtain ⟨⟨t, there⟩, found⟩ := List.forall_mem_cons.mp found
      have same : ∀ a : A, e.dial connect (proto, a) = connect t a >>= fun result =>
          .ok (result.1, { e with transports := e.transports.insert proto result.2 }) := by
        intro a
        rw [dial, there]
        rfl
      rw [dialProtos, there, tried, List.flatMap_cons, Logged.firstOk_append,
        Logged.firstOk_map (fun a _ => same a), Logged.bind_assoc, Logged.bind_assoc]
      change (Logged.firstOk (proto, ·) (connect t) _ >>= _) = _
      congr 1
      funext result
      cases result with
      | none => exact ih found
      | some result => rfl

theorem WellBuilt.dialNode_eq (built : e.WellBuilt) :
    e.dialNode S connect (.ok iface) addr =
      Logged.firstOk id (e.dial connect) (e.candidates S iface addr) >>=
      fun result => .silent (Outcome.okOr (.message "No direct address found for node") result) :=
  dialProtos_eq fun proto there => by
    obtain ⟨t, found, -⟩ := built.transport proto there
    exact ⟨t, found⟩

end Endpoint

theorem tried_proto {S : StackAddrs A} {addr : NodeAddr A} {allowLoopback : Bool} {iface : Interface}
    {protocols : List TransportKind} {candidate : TransportKind × A}
    (there : candidate ∈ tried S addr allowLoopback iface protocols) : candidate.1 ∈ protocols := by
  obtain ⟨proto, enabled, mapped⟩ := List.mem_flatMap.mp there
  obtain ⟨a, -, rfl⟩ := List.mem_map.mp mapped
  exact enabled

end Foctet.Net
