import Foctet.Lib.Machine
import Foctet.Net.Endpoint

/-! The listening side of an endpoint. The actor makes a transport and a listener for each
of its addresses and then only waits for commands. A listener is a task that accepts clients,
one handshake after the other, into a channel of its own; a second task forwards what comes
out of it to the channel that `accept` reads. Tasks go on independently, so the order of all
their steps is arbitrary. -/
namespace Foctet.Net
open Foctet.Core Foctet.Lib

/-- The capacity of the channels of listeners and of the three channels of an endpoint. -/
def CHANNEL_CAPACITY : Nat := 100

/-! ### One client of a listener -/

section
variable {A : Type} (S : StackAddrs A) (C : Crates)

/-- What becomes of a client, for the loop that accepts. -/
inductive Established (A : Type) where
  | made (conn : Connection A)
  /-- an error is logged and the loop goes on -/
  | refused
  /-- the task returns or panics -/
  | died
  /-- the process is aborted -/
  | aborted

/-- The session ID is taken before the node ID is read. The verifier runs inside the task. -/
def TcpTransport.establish (t : TcpTransport) (localAddr : A) (remote : SocketAddr) (peer : PeerAnswer) :
    Established A × TcpTransport :=
  match tlsAccept C t.tlsAcceptor peer with
  | .err _ => (.refused, t)
  | .panic => (.died, t)
  | .ok certs =>
      let sessionId := t.nextSessionId
      let t := { t with nextSessionId := t.nextSessionId + 1 }
      match extractRemoteNodeId C peer.extractedAt (some certs) with
      | .ok remoteNodeId =>
          (.made (.Tcp { direction := .Incoming, localAddr := localAddr,
                         remoteAddr := S.withProtocol
                           (S.withProtocol (S.withIp S.empty remote.ip) (.Tcp remote.port)) .Tls,
                         localNodeId := t.localNodeId, remoteNodeId := remoteNodeId,
                         writeBufferSize := t.writeBufferSize, readBufferSize := t.readBufferSize }
            sessionId), t)
      | _ => (.died, t)

/-- The verifier runs in a task of quinn, under the lock of the connection. A panic there poisons
the lock, and the connection that is dropped then panics again, which aborts the process. -/
def QuicTransport.establish (t : QuicTransport) (localAddr : A) (remote : SocketAddr) (peer : PeerAnswer) :
    Established A :=
  match tlsAccept C t.serverConfig peer with
  | .err _ => .refused
  | .panic => .aborted
  | .ok certs =>
      match extractRemoteNodeId C peer.extractedAt (some certs) with
      | .ok remoteNodeId =>
          .made (.Quic { direction := .Incoming, localAddr := localAddr,
                         remoteAddr := S.withProtocol
                           (S.withProtocol (S.withIp S.empty remote.ip) (.Udp remote.port)) .Quic,
                         localNodeId := t.localNodeId, remoteNodeId := remoteNodeId,
                         writeBufferSize := t.writeBufferSize, readBufferSize := t.readBufferSize })
      | _ => .died

def Transport.establish (t : Transport) (localAddr : A) (remote : SocketAddr) (peer : PeerAnswer) :
    Established A × Transport :=
  match t with
  | .Quic t => (t.establish S C localAddr remote peer, .Quic t)
  | .Tcp t => ((t.establish S C localAddr remote peer).1, .Tcp (t.establish S C localAddr remote peer).2)

/-- `listen_on`, up to the address it listens on. Of the network it needs the DNS answer and
the socket. -/
def Transport.listenOn (t : Transport) (w : Attempt) (addr : A) : Outcome AnyhowError A := do
  let addr ← resolveAddr S w addr
  let socketAddr ← Outcome.okOr (.message "Invalid address") (S.socketAddr addr)
  let localSocketAddr ← Outcome.okOr .other (w.bind socketAddr)
  let host := S.withIp S.empty localSocketAddr.ip
  return match t with
    | .Quic _ => S.withProtocol (S.withProtocol host (.Udp localSocketAddr.port)) .Quic
    | .Tcp _ => S.withProtocol (S.withProtocol host (.Tcp localSocketAddr.port)) .Tls

end

/-! ### A listener and its forwarder -/

/-- Where the task that accepts stands. -/
inductive Accepting (A : Type) where
  | waiting
  /-- in the handshake with a client; nothing else is looked at meanwhile -/
  | handshake (remote : SocketAddr)
  | sending (conn : Connection A)
  | ended

/-- Where the task that forwards stands. -/
inductive Forwarding (A : Type) where
  | waiting
  | passing (conn : Connection A)
  /-- sending an event about a connection that could not be passed on -/
  | reporting
  | ended

structure Listener (A : Type) where
  transport : Transport
  localAddr : A
  accepting : Accepting A
  channel : List (Connection A)
  forwarding : Forwarding A
  /-- all connections it has made so far -/
  made : List (Connection A)
  /-- those that went into the channel that `accept` reads -/
  handed : List (Connection A)
  /-- those for which that channel was closed -/
  lost : List (Connection A)

/-- What a listener finds of the endpoint. -/
structure Surroundings where
  /-- there is still somebody who can call `accept` -/
  receiving : Bool
  connectionRoom : Bool
  /-- there is still somebody who can call `next_event` -/
  listening : Bool
  eventRoom : Bool

/-- What a step of a listener puts into the channels of the endpoint, or does to the process. -/
inductive Emitted (A : Type) where
  | nothing
  | connection (conn : Connection A)
  | error
  | abort

inductive ListenerAct where
  | arrives (remote : SocketAddr)
  /-- the socket fails or the QUIC endpoint is closed -/
  | fails
  /-- the handshake ends, with what the client sent or before it authenticated itself -/
  | finishes (client : Option PeerAnswer)
  | sends
  /-- the forwarder gets the next connection, or the end of the channel -/
  | takes
  | passes
  | reports

namespace Listener
variable {A : Type} (S : StackAddrs A) (C : Crates)

def new (transport : Transport) (localAddr : A) : Listener A where
  transport := transport
  localAddr := localAddr
  accepting := .waiting
  channel := []
  forwarding := .waiting
  made := []
  handed := []
  lost := []

/-- The end of a handshake, in the loop that accepts. -/
def finish (x : Listener A) (remote : SocketAddr) : Option PeerAnswer → Listener A × Emitted A
  | none => ({ x with accepting := .waiting }, .nothing)
  | some peer =>
      match x.transport.establish S C x.localAddr remote peer with
      | (.made conn, transport) =>
          ({ x with transport := transport, accepting := .sending conn, made := x.made ++ [conn] }, .nothing)
      | (.refused, transport) => ({ x with transport := transport, accepting := .waiting }, .nothing)
      | (.died, transport) => ({ x with transport := transport, accepting := .ended }, .nothing)
      | (.aborted, _) => (x, .abort)

/-- The token that would cancel the loop stays with the forwarder, which never cancels it. -/
def step (around : Surroundings) (x : Listener A) : ListenerAct → Option (Listener A × Emitted A)
  | .arrives remote =>
      match x.accepting with
      | .waiting => some ({ x with accepting := .handshake remote }, .nothing)
      | _ => none
  | .fails =>
      match x.accepting with
      | .waiting => some ({ x with accepting := .ended }, .nothing)
      | _ => none
  | .finishes client =>
      match x.accepting with
      | .handshake remote => some (x.finish S C remote client)
      | _ => none
  | .sends =>
      match x.accepting, x.forwarding with
      | .sending _, .ended => some ({ x with accepting := .ended }, .nothing)
      | .sending conn, _ =>
          if x.channel.length < CHANNEL_CAPACITY then
            some ({ x with accepting := .waiting, channel := x.channel ++ [conn] }, .nothing)
          else none
      | _, _ => none
  | .takes =>
      match x.forwarding, x.channel with
      | .waiting, conn :: rest => some ({ x with channel := rest, forwarding := .passing conn }, .nothing)
      | .waiting, [] =>
          match x.accepting with
          | .ended => some ({ x with forwarding := .ended }, .nothing)
          | _ => none
      | _, _ => none
  | .passes =>
      match x.forwarding with
      | .passing conn =>
          if around.receiving then
            if around.connectionRoom then
              some ({ x with forwarding := .waiting, handed := x.handed ++ [conn] }, .connection conn)
            else none
          else some ({ x with forwarding := .reporting, lost := x.lost ++ [conn] }, .nothing)
      | _ => none
  | .reports =>
      match x.forwarding with
      | .reporting =>
          if around.listening then
            if around.eventRoom then some ({ x with forwarding := .waiting }, .error) else none
          else some ({ x with forwarding := .waiting }, .nothing)
      | _ => none

end Listener

/-! ### The endpoint -/

inductive EndpointCommand (A : Type) where
  | Connect (addr : A)
  | Listen (addr : A)
  | Shutdown

/-- The only event that is ever made. -/
inductive EndpointEvent where
  | Error (text : String)

/-- Where `EndpointActor::run` stands. -/
inductive Running (A : Type) where
  /-- addresses that it will listen on next -/
  | listening (addrs : List A)
  | serving
  | ended

/-- An endpoint with all its tasks. Connections are queued with the number of the listener
they come from. -/
structure Hub (A : Type) where
  config : TransportConfig
  actor : Running A
  listeners : List (Listener A)
  connections : List (Nat × Connection A)
  events : List EndpointEvent
  commands : List (EndpointCommand A)
  cancelled : Bool
  /-- the `Endpoint` has not been dropped -/
  endpoint : Bool
  /-- how many `ListenerHandle`s there are besides the one of the endpoint -/
  handles : Nat
  /-- what `accept` has returned so far -/
  accepted : List (Nat × Connection A)
  /-- the process was aborted -/
  aborted : Bool

namespace Hub
variable {A : Type} (S : StackAddrs A) (C : Crates)

def spawn (actor : EndpointActor A) : Hub A where
  config := actor.config
  actor := if actor.listenEnabled then .listening actor.addrs else .serving
  listeners := []
  connections := []
  events := []
  commands := []
  cancelled := false
  endpoint := true
  handles := 0
  accepted := []
  aborted := false

/-- There is somebody who can call `accept`. -/
def receiving (h : Hub A) : Bool := !h.aborted && (h.endpoint || decide (0 < h.handles))

def surroundings (h : Hub A) : Surroundings where
  receiving := h.receiving
  connectionRoom := h.connections.length < CHANNEL_CAPACITY
  listening := h.endpoint
  eventRoom := h.events.length < CHANNEL_CAPACITY

/-- One round of the loop over the addresses. Any error ends the actor. -/
def listen (h : Hub A) (w : Attempt) : Option (Hub A) :=
  match h.actor with
  | .listening [] => some { h with actor := .serving }
  | .listening (addr :: rest) =>
      match (S.transport addr).bind TransportKind.fromProtocol with
      | none => some { h with actor := .ended }
      | some kind =>
          let transport := EndpointBuilder.transportOf h.config kind
          match transport.listenOn S w addr with
          | .ok localAddr =>
              some { h with actor := .listening rest,
                            listeners := h.listeners ++ [Listener.new transport localAddr] }
          | _ => some { h with actor := .ended }
  | _ => none

def emit (h : Hub A) (i : Nat) : Emitted A → Hub A
  | .nothing => h
  | .connection conn => { h with connections := h.connections ++ [(i, conn)] }
  | .error =>
      { h with events := h.events ++ [.Error "Error sending connection event: SendError \x7b .. \x7d"] }
  | .abort => { h with aborted := true }

/-- What the last receiver leaves in the queue is dropped with it. -/
def close (h : Hub A) : Hub A := if h.receiving then h else { h with connections := [] }

inductive Label (A : Type) where
  /-- the actor goes on to its next address -/
  | listen (w : Attempt)
  /-- the actor takes a command -/
  | command
  /-- the actor sees that it is cancelled -/
  | cancel
  | listener (i : Nat) (act : ListenerAct)
  /-- `accept` returns a connection -/
  | accept
  /-- `accept` returns `None` -/
  | acceptNone
  | sendCommand (cmd : EndpointCommand A)
  | shutdown
  | getListener
  | cloneHandle
  | dropHandle
  | dropEndpoint

/-- `recv` returns `None`: the queue is empty and every sender is gone. -/
def Drained (h : Hub A) : Prop :=
  h.connections = [] ∧ h.actor = .ended ∧ ∀ x ∈ h.listeners, x.forwarding = .ended

instance (a : Running A) : Decidable (a = .ended) :=
  match a with
  | .ended => isTrue rfl
  | .listening _ => isFalse (by simp)
  | .serving => isFalse (by simp)

instance (a : Running A) : Decidable (a = .serving) :=
  match a with
  | .serving => isTrue rfl
  | .listening _ => isFalse (by simp)
  | .ended => isFalse (by simp)

instance (a : Accepting A) : Decidable (a = .ended) :=
  match a with
  | .ended => isTrue rfl
  | .waiting => isFalse (by simp)
  | .handshake _ => isFalse (by simp)
  | .sending _ => isFalse (by simp)

instance (f : Forwarding A) : Decidable (f = .ended) :=
  match f with
  | .ended => isTrue rfl
  | .waiting => isFalse (by simp)
  | .passing _ => isFalse (by simp)
  | .reporting => isFalse (by simp)

instance (h : Hub A) : Decidable h.Drained := inferInstanceAs (Decidable (_ ∧ _ ∧ _))

/-- What a task or a caller does. A call that has to wait is not enabled. Only a shutdown makes
the actor stop, which has a sender of connections until then. -/
def act (h : Hub A) : Label A → Option (Hub A)
  | .listen w => h.listen S w
  | .command =>
      match h.actor, h.commands with
      | .serving, .Shutdown :: rest => some { h with actor := .ended, commands := rest }
      | .serving, _ :: rest => some { h with commands := rest }
      | _, _ => none
  | .cancel =>
      match h.actor with
      | .serving => if h.cancelled then some { h with actor := .ended } else none
      | _ => none
  | .listener i act =>
      (h.listeners[i]?).bind fun x => (x.step S C h.surroundings act).map fun (x', out) =>
        { h with listeners := h.listeners.set i x' }.emit i out
  | .accept =>
      if h.receiving then
        match h.connections with
        | conn :: rest => some { h with connections := rest, accepted := h.accepted ++ [conn] }
        | [] => none
      else none
  | .acceptNone => if h.receiving ∧ h.Drained then some h else none
  | .sendCommand cmd =>
      if h.endpoint then
        match h.actor with
        | .ended => some h
        | _ =>
            if h.commands.length < CHANNEL_CAPACITY then some { h with commands := h.commands ++ [cmd] }
            else none
      else none
  | .shutdown =>
      if h.endpoint then
        match h.actor with
        | .ended => some h
        | _ =>
            if h.commands.length < CHANNEL_CAPACITY then
              some { h with commands := h.commands ++ [.Shutdown], cancelled := true }
            else none
      else none
  | .getListener => if h.endpoint then some { h with handles := h.handles + 1 } else none
  | .cloneHandle => if 0 < h.handles then some { h with handles := h.handles + 1 } else none
  | .dropHandle => if 0 < h.handles then some ({ h with handles := h.handles - 1 }.close) else none
  | .dropEndpoint => if h.endpoint then some ({ h with endpoint := false }.close) else none

/-- Nothing happens any more in a process that was aborted. -/
def step (h : Hub A) (label : Label A) : Option (Hub A) :=
  if h.aborted then none else h.act S C label

end Hub
end Foctet.Net
