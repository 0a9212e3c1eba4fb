import Foctet.Lib.Simulation
import Foctet.Net.Authentication
import Foctet.Net.Listening

/-! What `accept` returns. Each connection was authenticated by its listener; of one listener
none is lost or overtaken as long as somebody can accept it. -/
namespace Foctet.Net
open Foctet.Core Foctet.Lib

variable {A : Type} {S : StackAddrs A} {C : Crates}

/-! ### What becomes of a client -/

def Connection.data : Connection A → ConnectionData A
  | .Quic conn => conn
  | .Tcp conn _ => conn

def Connection.sessionId : Connection A → Option UInt32
  | .Quic _ => none
  | .Tcp _ id => some id

namespace Transport

def nextSessionId : Transport → Option UInt32
  | .Quic _ => none
  | .Tcp t => some t.nextSessionId

/-- The session ID of the connection that a transport makes after `k` others. -/
def sessionIdAt (k : Nat) : Transport → Option UInt32
  | .Quic _ => none
  | .Tcp _ => some (.ofNat (k + 1))

/-- The transport after a session ID was taken. -/
def advance : Transport → Transport
  | .Quic t => .Quic t
  | .Tcp t => .Tcp { t with nextSessionId := t.nextSessionId + 1 }

/-- The transport was made with this configuration. -/
def MadeWith (config : TransportConfig) : Transport → Prop
  | .Quic t => t = .new config
  | .Tcp t => t = { TcpTransport.new config with nextSessionId := t.nextSessionId }

theorem madeWith_advance {config : TransportConfig} {t : Transport} (made : t.MadeWith config) :
    t.advance.MadeWith config := by
  cases t with
  | Quic t => exact made
  | Tcp t =>
      rw [MadeWith] at made
      rw [advance, MadeWith, made]

@[simp] theorem sessionIdAt_advance (k : Nat) (t : Transport) :
    t.advance.sessionIdAt k = t.sessionIdAt k := by
  cases t <;> rfl

theorem nextSessionId_advance {k : Nat} {t : Transport} (next : t.nextSessionId = t.sessionIdAt k) :
    t.advance.nextSessionId = t.sessionIdAt (k + 1) := by
  cases t with
  | Quic t => rfl
  | Tcp t =>
      have id : t.nextSessionId = .ofNat (k + 1) := Option.some.inj next
      simp only [advance, nextSessionId, sessionIdAt, id, Option.some.injEq]
      rw [UInt32.ofNat_add (k + 1) 1]
      rfl

@[simp] theorem kind_advance (t : Transport) : t.advance.kind = t.kind := by
  cases t <;> rfl

theorem madeWith_transportOf (config : TransportConfig) (kind : TransportKind) :
    (EndpointBuilder.transportOf config kind).MadeWith config := by
  cases kind <;> rfl

end Transport

/-- What a listener with this configuration gives all its connections. -/
structure Connection.Inbound (config : TransportConfig) (localAddr : A) (conn : Connection A) :
    Prop where
  direction : conn.data.direction = .Incoming
  localAddr : conn.data.localAddr = localAddr
  localNodeId : conn.data.localNodeId = config.keypair.publicKey
  buffers : conn.data.writeBufferSize = config.writeBufferSize ∧
    conn.data.readBufferSize = config.readBufferSize

/-- The client sends one certificate that passes every check of the handshake, and has run
out when the node ID is read. -/
structure Lapses (C : Crates) (peer : PeerAnswer) : Prop where
  alone : peer.intermediates = []
  certificate : ∃ c, parse C peer.presentedAt peer.endEntity = .ok c ∧
    c.signatureScheme C = .ok peer.scheme ∧
    c.KeyVerifies C peer.scheme peer.message peer.signature ∧
    c.certificate.validity.isValidAt peer.signedAt = true ∧
    c.certificate.validity.isValidAt peer.extractedAt = false

/-- The client sends one certificate, which `parse_unverified` panics on. -/
def Panics (C : Crates) (peer : PeerAnswer) : Prop :=
  peer.intermediates = [] ∧ parseUnverified C peer.endEntity = .panic

/-- A client that ends the task which accepts it. -/
def Deadly (C : Crates) (kind : TransportKind) (peer : PeerAnswer) : Prop :=
  kind = .TlsOverTcp ∧ Panics C peer ∨ Lapses C peer

/-- A client that ends the process. -/
def Fatal (C : Crates) (kind : TransportKind) (peer : PeerAnswer) : Prop := kind = .Quic ∧ Panics C peer

section clients
variable {config : ServerConfig} {peer : PeerAnswer} {certs : List (List UInt8)} {c : FoctetCertificate}

theorem lapses_iff : Lapses C peer ↔
    ∃ c, Shakes C peer c ∧ c.certificate.validity.isValidAt peer.extractedAt = false := by
  constructor
  · rintro ⟨alone, c, parsed, scheme, signed, valid, expired⟩
    exact ⟨c, ⟨alone, parsed, scheme, signed, valid⟩, expired⟩
  · rintro ⟨c, ⟨alone, parsed, scheme, signed, valid⟩, expired⟩
    exact ⟨alone, c, parsed, scheme, signed, valid, expired⟩

theorem Shakes.not_panics (shakes : Shakes C peer c) : ¬ Panics C peer := by
  rintro ⟨-, panicked⟩
  rw [(parse_eq_ok.mp shakes.parsed).1] at panicked
  cases panicked

theorem Presents.not_panics {n : NodeId} (presents : Presents C peer n) : ¬ Panics C peer := by
  obtain ⟨c, shakes, -⟩ := presents_iff.mp presents
  exact shakes.not_panics

theorem Lapses.not_panics (lapses : Lapses C peer) : ¬ Panics C peer := by
  obtain ⟨c, shakes, -⟩ := lapses_iff.mp lapses
  exact shakes.not_panics

theorem Presents.not_lapses {n : NodeId} (presents : Presents C peer n) : ¬ Lapses C peer := by
  intro lapses
  obtain ⟨c, shakes, -, valid⟩ := presents_iff.mp presents
  obtain ⟨d, shakesToo, expired⟩ := lapses_iff.mp lapses
  cases parse_unique shakes.parsed shakesToo.parsed
  rw [valid] at expired
  cases expired

/-- Behind a finished handshake the node ID is read, or the certificate has run out. -/
theorem extract_accepted (accepted : tlsAccept C config peer = .ok certs) :
    (∃ n, extractRemoteNodeId C peer.extractedAt (some certs) = .ok n ∧ Presents C peer n) ∨
      (∃ e, extractRemoteNodeId C peer.extractedAt (some certs) = .err e) ∧ Lapses C peer := by
  obtain ⟨rfl, c, shakes⟩ := tlsAccept_eq_ok.mp accepted
  rw [shakes.extracted]
  cases valid : c.certificate.validity.isValidAt peer.extractedAt with
  | true => exact .inl ⟨c.nodeId, rfl, presents_iff.mpr ⟨c, shakes, rfl, valid⟩⟩
  | false => exact .inr ⟨⟨_, rfl⟩, lapses_iff.mpr ⟨c, shakes, valid⟩⟩

theorem refused_of_err {e : AnyhowError} (refused : tlsAccept C config peer = .err e) :
    ¬ Panics C peer ∧ ¬ Lapses C peer := by
  constructor
  · intro panics
    rw [tlsAccept_eq_panic.mpr panics] at refused
    cases refused
  · intro lapses
    obtain ⟨c, shakes, -⟩ := lapses_iff.mp lapses
    rw [tlsAccept_eq_ok.mpr ⟨rfl, c, shakes⟩] at refused
    cases refused

end clients

namespace Transport

/-- What becomes of a client, and of the transport: it is authenticated, it is refused, or it
ends the task or the process. -/
inductive Treats (C : Crates) (config : TransportConfig) (localAddr : A) (t : Transport)
    (peer : PeerAnswer) : Established A → Transport → Prop where
  | made {conn : Connection A} (presents : Presents C peer conn.remoteNodeId)
      (inbound : conn.Inbound config localAddr) (id : conn.sessionId = t.nextSessionId) :
      Treats C config localAddr t peer (.made conn) t.advance
  | refused (calm : ¬ Panics C peer) (lasting : ¬ Lapses C peer) :
      Treats C config localAddr t peer .refused t
  | panicked (tcp : t.kind = .TlsOverTcp) (panics : Panics C peer) :
      Treats C config localAddr t peer .died t
  | lapsed {t' : Transport} (kept : t' = t ∨ t' = t.advance) (lapses : Lapses C peer) :
      Treats C config localAddr t peer .died t'
  | aborted (quic : t.kind = .Quic) (panics : Panics C peer) :
      Treats C config localAddr t peer .aborted t

variable {config : TransportConfig} {t t' : Transport} {localAddr : A} {remote : SocketAddr}
  {peer : PeerAnswer} {result : Established A}

theorem treats_establish (made : t.MadeWith config) :
    Treats C config localAddr t peer (t.establish S C localAddr remote peer).1
      (t.establish S C localAddr remote peer).2 := by
  cases t with
  | Quic t =>
      cases made
      simp only [establish, QuicTransport.establish]
      cases accepted : tlsAccept C (QuicTransport.new config).serverConfig peer with
      | err e =>
          obtain ⟨calm, lasting⟩ := refused_of_err accepted
          exact .refused calm lasting
      | panic => exact .aborted rfl (tlsAccept_eq_panic.mp accepted)
      | ok certs =>
          rcases extract_accepted accepted with ⟨n, read, presents⟩ | ⟨⟨e, read⟩, lapses⟩
          · simp only [read]
            exact .made presents ⟨rfl, rfl, rfl, rfl, rfl⟩ rfl
          · simp only [read]
            exact .lapsed (.inl rfl) lapses
  | Tcp t =>
      simp only [establish, TcpTransport.establish]
      cases accepted : tlsAccept C t.tlsAcceptor peer with
      | err e =>
          obtain ⟨calm, lasting⟩ := refused_of_err accepted
          exact .refused calm lasting
      | panic => exact .panicked rfl (tlsAccept_eq_panic.mp accepted)
      | ok certs =>
          rcases extract_accepted accepted with ⟨n, read, presents⟩ | ⟨⟨e, read⟩, lapses⟩
          · simp only [read]
            have own : t.localNodeId = _ := congrArg TcpTransport.localNodeId made
            have write : t.writeBufferSize = _ := congrArg TcpTransport.writeBufferSize made
            have room : t.readBufferSize = _ := congrArg TcpTransport.readBufferSize made
            exact .made presents ⟨rfl, rfl, own, write, room⟩ rfl
          · simp only [read]
            exact .lapsed (.inr rfl) lapses

theorem treats_of_eq (made : t.MadeWith config)
    (established : t.establish S C localAddr remote peer = (result, t')) :
    Treats C config localAddr t peer result t' := by
  have treats : Treats C config localAddr t peer (t.establish S C localAddr remote peer).1 _ :=
    treats_establish made
  rwa [established] at treats

/-- A client changes no more of a transport than the next session ID. -/
theorem Treats.kind (treats : Treats C config localAddr t peer result t') : t'.kind = t.kind := by
  cases treats with
  | made => exact kind_advance t
  | lapsed kept =>
      rcases kept with rfl | rfl
      · rfl
      · exact kind_advance t
  | refused | panicked | aborted => rfl

end Transport

/-! ### The steps of a listener -/

def Accepting.held : Accepting A → List (Connection A)
  | .sending conn => [conn]
  | .waiting | .handshake _ | .ended => []

def Forwarding.held : Forwarding A → List (Connection A)
  | .passing conn => [conn]
  | .waiting | .reporting | .ended => []

namespace Listener

/-- The connections that are on their way, the oldest first. -/
def inFlight (x : Listener A) : List (Connection A) := x.forwarding.held ++ x.channel ++ x.accepting.held

/-- All that a step can do, with what it found. -/
inductive Moves (S : StackAddrs A) (C : Crates) (around : Surroundings) (x : Listener A) :
    ListenerAct → Listener A → Emitted A → Prop where
  | arrives {remote : SocketAddr} (waiting : x.accepting = .waiting) :
      Moves S C around x (.arrives remote) { x with accepting := .handshake remote } .nothing
  | fails (waiting : x.accepting = .waiting) :
      Moves S C around x .fails { x with accepting := .ended } .nothing
  | leaves {remote : SocketAddr} (busy : x.accepting = .handshake remote) :
      Moves S C around x (.finishes none) { x with accepting := .waiting } .nothing
  | makes {remote : SocketAddr} {peer : PeerAnswer} {conn : Connection A} {t : Transport}
      (busy : x.accepting = .handshake remote)
      (established : x.transport.establish S C x.localAddr remote peer = (.made conn, t)) :
      Moves S C around x (.finishes (some peer))
        { x with transport := t, accepting := .sending conn, made := x.made ++ [conn] } .nothing
  | refuses {remote : SocketAddr} {peer : PeerAnswer} {t : Transport}
      (busy : x.accepting = .handshake remote)
      (established : x.transport.establish S C x.localAddr remote peer = (.refused, t)) :
      Moves S C around x (.finishes (some peer)) { x with transport := t, accepting := .waiting } .nothing
  | dies {remote : SocketAddr} {peer : PeerAnswer} {t : Transport}
      (busy : x.accepting = .handshake remote)
      (established : x.transport.establish S C x.localAddr remote peer = (.died, t)) :
      Moves S C around x (.finishes (some peer)) { x with transport := t, accepting := .ended } .nothing
  | aborts {remote : SocketAddr} {peer : PeerAnswer} {t : Transport}
      (busy : x.accepting = .handshake remote)
      (established : x.transport.establish S C x.localAddr remote peer = (.aborted, t)) :
      Moves S C around x (.finishes (some peer)) x .abort
  | orphaned {conn : Connection A} (full : x.accepting = .sending conn) (gone : x.forwarding = .ended) :
      Moves S C around x .sends { x with accepting := .ended } .nothing
  | sends {conn : Connection A} (full : x.accepting = .sending conn)
      (room : x.channel.length < CHANNEL_CAPACITY) :
      Moves S C around x .sends { x with accepting := .waiting, channel := x.channel ++ [conn] } .nothing
  | takes {conn : Connection A} {rest : List (Connection A)} (idle : x.forwarding = .waiting)
      (next : x.channel = conn :: rest) :
      Moves S C around x .takes { x with channel := rest, forwarding := .passing conn } .nothing
  | stops (idle : x.forwarding = .waiting) (empty : x.channel = []) (ended : x.accepting = .ended) :
      Moves S C around x .takes { x with forwarding := .ended } .nothing
  | passes {conn : Connection A} (full : x.forwarding = .passing conn)
      (receiving : around.receiving = true) (room : around.connectionRoom = true) :
      Moves S C around x .passes { x with forwarding := .waiting, handed := x.handed ++ [conn] }
        (.connection conn)
  | loses {conn : Connection A} (full : x.forwarding = .passing conn)
      (closed : around.receiving = false) :
      Moves S C around x .passes { x with forwarding := .reporting, lost := x.lost ++ [conn] } .nothing
  | reports (busy : x.forwarding = .reporting) (listening : around.listening = true)
      (room : around.eventRoom = true) :
      Moves S C around x .reports { x with forwarding := .waiting } .error
  | logs (busy : x.forwarding = .reporting) (closed : around.listening = false) :
      Moves S C around x .reports { x with forwarding := .waiting } .nothing

section moves
variable {around : Surroundings} {x x' : Listener A} {act : ListenerAct} {out : Emitted A}

theorem moves_of_finish {remote : SocketAddr} (client : Option PeerAnswer)
    (busy : x.accepting = .handshake remote) :
    Moves S C around x (.finishes client) (x.finish S C remote client).1 (x.finish S C remote client).2 := by
  cases client with
  | none => exact .leaves busy
  | some peer =>
      rw [finish]
      cases established : x.transport.establish S C x.localAddr remote peer with
      | mk result t =>
          cases result with
          | made conn => exact .makes busy established
          | refused => exact .refuses busy established
          | died => exact .dies busy established
          | aborted => exact .aborts busy established

theorem moves_of_step (stepped : x.step S C around act = some (x', out)) :
    Moves S C around x act x' out := by
  cases act with
  | finishes client =>
      simp only [step] at stepped
      split at stepped
      case h_1 remote busy =>
          have moves : Moves S C around x (.finishes client) (x.finish S C remote client).1 _ :=
            moves_of_finish client busy
          rwa [Option.some.inj stepped] at moves
      case h_2 => cases stepped
  | arrives remote =>
      simp only [step] at stepped
      split at stepped
      case h_1 waiting =>
          cases stepped
          exact .arrives waiting
      case h_2 => cases stepped
  | fails =>
      simp only [step] at stepped
      split at stepped
      case h_1 waiting =>
          cases stepped
          exact .fails waiting
      case h_2 => cases stepped
  | sends =>
      simp only [step] at stepped
      split at stepped
      case h_1 conn full gone =>
          cases stepped
          exact .orphaned full gone
      case h_2 conn _ full _ =>
          split at stepped
          case isTrue room =>
              cases stepped
              exact .sends full room
          case isFalse => cases stepped
      case h_3 => cases stepped
  | takes =>
      simp only [step] at stepped
      split at stepped
      case h_1 conn rest idle next =>
          cases stepped
          exact .takes idle next
      case h_2 idle empty =>
          split at stepped
          case h_1 ended =>
              cases stepped
              exact .stops idle empty ended
          case h_2 => cases stepped
      case h_3 => cases stepped
  | passes =>
      simp only [step] at stepped
      split at stepped
      case h_1 conn full =>
          split_ifs at stepped with receiving room
          · cases stepped
            exact .passes full receiving room
          · cases stepped
            exact .loses full (Bool.eq_false_iff.mpr receiving)
      case h_2 => cases stepped
  | reports =>
      simp only [step] at stepped
      split at stepped
      case h_1 busy =>
          split_ifs at stepped with listening room
          · cases stepped
            exact .reports busy listening room
          · cases stepped
            exact .logs busy (Bool.eq_false_iff.mpr listening)
      case h_2 => cases stepped

/-- Nothing is made that is not handed over, lost or on its way, in this order; and a
forwarder that has ended leaves nothing behind. -/
structure Whole (x : Listener A) : Prop where
  parts : x.handed ++ x.lost ++ x.inFlight = x.made
  stopped : x.forwarding = .ended → x.accepting = .ended ∧ x.channel = []

theorem whole_new (t : Transport) (localAddr : A) : (new t localAddr).Whole := ⟨rfl, by intro h; cases h⟩

/-- As long as clients are accepted, somebody forwards them. -/
theorem Whole.going (whole : x.Whole) (accepts : x.accepting ≠ .ended) : x.forwarding ≠ .ended :=
  fun ended => accepts (whole.stopped ended).1

theorem Whole.moves (whole : x.Whole) (kept : around.receiving = true → x.lost = [])
    (moves : Moves S C around x act x' out) : x'.Whole := by
  have parts := whole.parts
  unfold inFlight at parts
  cases moves with
  | arrives waiting =>
      refine ⟨?_, fun ended => absurd ended (whole.going (by simp [waiting]))⟩
      simpa only [inFlight, waiting, Accepting.held] using parts
  | fails waiting =>
      refine ⟨?_, fun ended => ⟨rfl, (whole.stopped ended).2⟩⟩
      simpa only [inFlight, waiting, Accepting.held] using parts
  | leaves busy =>
      refine ⟨?_, fun ended => absurd ended (whole.going (by simp [busy]))⟩
      simpa only [inFlight, busy, Accepting.held] using parts
  | @makes _ _ conn _ busy _ =>
      refine ⟨?_, fun ended => absurd ended (whole.going (by simp [busy]))⟩
      rw [busy, Accepting.held, List.append_nil] at parts
      simp only [inFlight, Accepting.held, ← parts, List.append_assoc]
  | refuses busy =>
      refine ⟨?_, fun ended => absurd ended (whole.going (by simp [busy]))⟩
      simpa only [inFlight, busy, Accepting.held] using parts
  | dies busy =>
      refine ⟨?_, fun ended => ⟨rfl, (whole.stopped ended).2⟩⟩
      simpa only [inFlight, busy, Accepting.held] using parts
  | aborts => exact whole
  | orphaned full gone => exact absurd gone (whole.going (by simp [full]))
  | @sends conn full room =>
      refine ⟨?_, fun ended => absurd ended (whole.going (by simp [full]))⟩
      simpa only [inFlight, full, Accepting.held, List.append_assoc, List.append_nil] using parts
  | takes idle next =>
      refine ⟨?_, fun ended => by cases ended⟩
      simpa only [inFlight, idle, next, Forwarding.held, List.nil_append, List.singleton_append] using parts
  | stops idle empty ended =>
      refine ⟨?_, fun _ => ⟨ended, empty⟩⟩
      simpa only [inFlight, idle, Forwarding.held] using parts
  | passes full receiving room =>
      refine ⟨?_, fun ended => by cases ended⟩
      rw [kept receiving] at parts ⊢
      simpa only [inFlight, full, Forwarding.held, List.append_assoc, List.nil_append,
        List.append_nil] using parts
  | loses full closed =>
      refine ⟨?_, fun ended => by cases ended⟩
      simpa only [inFlight, full, Forwarding.held, List.append_assoc, List.nil_append] using parts
  | reports busy =>
      refine ⟨?_, fun ended => by cases ended⟩
      simpa only [inFlight, busy, Forwarding.held] using parts
  | logs busy =>
      refine ⟨?_, fun ended => by cases ended⟩
      simpa only [inFlight, busy, Forwarding.held] using parts

/-- What the connections of a listener are: authenticated by clients that it has seen, with
its own node ID, and on TCP with the next session ID each. -/
structure Stamped (C : Crates) (config : TransportConfig) (seen : ListenerAct → Prop)
    (x : Listener A) : Prop where
  transport : x.transport.MadeWith config
  authenticated : ∀ conn ∈ x.made, conn.Inbound config x.localAddr ∧
    ∃ peer, seen (.finishes (some peer)) ∧ Presents C peer conn.remoteNodeId
  numbered : ∀ k conn, x.made[k]? = some conn → conn.sessionId = x.transport.sessionIdAt k
  next : x.accepting ≠ .ended → x.transport.nextSessionId = x.transport.sessionIdAt x.made.length

theorem stamped_new (C : Crates) (config : TransportConfig) (kind : TransportKind) (localAddr : A)
    (seen : ListenerAct → Prop) :
    (new (EndpointBuilder.transportOf config kind) localAddr).Stamped C config seen where
  transport := Transport.madeWith_transportOf config kind
  authenticated := by
    intro conn member
    cases member
  numbered := by
    intro k conn found
    cases found
  next := by
    intro _
    cases kind <;> rfl

theorem Stamped.mono {config : TransportConfig} {seen seen' : ListenerAct → Prop}
    (more : ∀ a, seen a → seen' a) (stamped : x.Stamped C config seen) : x.Stamped C config seen' where
  transport := stamped.transport
  authenticated := by
    intro conn member
    obtain ⟨inbound, peer, there, presents⟩ := stamped.authenticated conn member
    exact ⟨inbound, peer, more _ there, presents⟩
  numbered := stamped.numbered
  next := stamped.next

/-- A step that makes no connection and leaves the transport alone. -/
theorem Stamped.unmade {config : TransportConfig} {seen : ListenerAct → Prop}
    (stamped : x.Stamped C config seen) (transport : x'.transport = x.transport)
    (localAddr : x'.localAddr = x.localAddr) (made : x'.made = x.made)
    (ended : x'.accepting ≠ .ended → x.accepting ≠ .ended) : x'.Stamped C config seen where
  transport := transport ▸ stamped.transport
  authenticated := by
    rw [made, localAddr]
    exact stamped.authenticated
  numbered := by
    rw [made, transport]
    exact stamped.numbered
  next := by
    intro going
    rw [made, transport]
    exact stamped.next (ended going)

theorem Stamped.moves {config : TransportConfig} {seen : ListenerAct → Prop}
    (stamped : x.Stamped C config seen) (now : seen act)
    (moves : Moves S C around x act x' out) : x'.Stamped C config seen := by
  cases moves with
  | arrives waiting => exact stamped.unmade rfl rfl rfl (by simp [waiting])
  | fails => exact stamped.unmade rfl rfl rfl (by simp)
  | leaves busy => exact stamped.unmade rfl rfl rfl (by simp [busy])
  | @makes remote peer conn t busy established =>
      have going : x.accepting ≠ .ended := by simp [busy]
      cases Transport.treats_of_eq stamped.transport established with
      | made presents inbound id =>
          refine ⟨Transport.madeWith_advance stamped.transport, ?_, ?_, ?_⟩
          · intro c member
            rcases List.mem_append.mp member with old | new
            · exact stamped.authenticated c old
            · cases List.mem_singleton.mp new
              exact ⟨inbound, peer, now, presents⟩
          · intro k c found
            rw [Transport.sessionIdAt_advance]
            rcases Nat.lt_or_ge k x.made.length with old | new
            · rw [List.getElem?_append_left old] at found
              exact stamped.numbered k c found
            · rw [List.getElem?_append_right new] at found
              obtain ⟨here, same⟩ := List.getElem?_eq_some_iff.mp found
              rw [List.length_singleton, Nat.lt_one_iff] at here
              rw [List.getElem_singleton] at same
              rw [← same, id, stamped.next going, Nat.le_antisymm (Nat.sub_eq_zero_iff_le.mp here) new]
          · intro _
            rw [Transport.sessionIdAt_advance, List.length_append, List.length_singleton]
            exact Transport.nextSessionId_advance (stamped.next going)
  | refuses busy established =>
      cases Transport.treats_of_eq stamped.transport established with
      | refused => exact stamped.unmade rfl rfl rfl (by simp [busy])
  | dies busy established =>
      cases Transport.treats_of_eq stamped.transport established with
      | panicked => exact stamped.unmade rfl rfl rfl (by simp)
      | lapsed kept =>
          rcases kept with rfl | rfl
          · exact stamped.unmade rfl rfl rfl (by simp)
          · refine ⟨Transport.madeWith_advance stamped.transport, stamped.authenticated, ?_, by simp⟩
            intro k c found
            rw [Transport.sessionIdAt_advance]
            exact stamped.numbered k c found
  | aborts => exact stamped
  | orphaned => exact stamped.unmade rfl rfl rfl (by simp)
  | sends full => exact stamped.unmade rfl rfl rfl (by simp [full])
  | takes => exact stamped.unmade rfl rfl rfl id
  | stops => exact stamped.unmade rfl rfl rfl id
  | passes => exact stamped.unmade rfl rfl rfl id
  | loses => exact stamped.unmade rfl rfl rfl id
  | reports => exact stamped.unmade rfl rfl rfl id
  | logs => exact stamped.unmade rfl rfl rfl id

theorem kind_moves {config : TransportConfig} (made : x.transport.MadeWith config)
    (moves : Moves S C around x act x' out) : x'.transport.kind = x.transport.kind := by
  cases moves with
  | makes busy established => exact (Transport.treats_of_eq made established).kind
  | refuses busy established => exact (Transport.treats_of_eq made established).kind
  | dies busy established => exact (Transport.treats_of_eq made established).kind
  | _ => rfl

/-- An act that ends the task which accepts. -/
def Ends (C : Crates) (kind : TransportKind) : ListenerAct → Prop
  | .fails => True
  | .finishes (some peer) => Deadly C kind peer
  | _ => False

/-- The task ends with such an act and with no other. -/
theorem ended_moves {config : TransportConfig} (whole : x.Whole) (made : x.transport.MadeWith config)
    (moves : Moves S C around x act x' out) :
    x'.accepting = .ended ↔ x.accepting = .ended ∨ Ends C x.transport.kind act := by
  cases moves with
  | arrives waiting => simp [waiting, Ends]
  | fails => simp [Ends]
  | leaves busy => simp [busy, Ends]
  | makes busy established =>
      cases Transport.treats_of_eq made established with
      | made presents => simp [busy, Ends, Deadly, presents.not_panics, presents.not_lapses]
  | refuses busy established =>
      cases Transport.treats_of_eq made established with
      | refused calm lasting => simp [busy, Ends, Deadly, calm, lasting]
  | dies busy established =>
      cases Transport.treats_of_eq made established with
      | panicked tcp panics => simp [Ends, Deadly, tcp, panics]
      | lapsed kept lapses => simp [Ends, Deadly, lapses]
  | aborts busy established =>
      cases Transport.treats_of_eq made established with
      | aborted quic panics =>
          have lasting : ¬ Lapses C _ := fun lapses => lapses.not_panics panics
          simp [busy, Ends, Deadly, quic, lasting]
  | orphaned full gone => exact absurd gone (whole.going (by simp [full]))
  | sends full => simp [full, Ends]
  | takes => simp [Ends]
  | stops => simp [Ends]
  | passes => simp [Ends]
  | loses => simp [Ends]
  | reports => simp [Ends]
  | logs => simp [Ends]

/-- The process ends with a client that ends it, and with no other act. -/
theorem abort_moves {config : TransportConfig} (made : x.transport.MadeWith config)
    (moves : Moves S C around x act x' out) :
    out = .abort ↔ ∃ peer, act = .finishes (some peer) ∧ Fatal C x.transport.kind peer := by
  cases moves with
  | makes busy established =>
      cases Transport.treats_of_eq made established with
      | made presents => simp [Fatal, presents.not_panics]
  | refuses busy established =>
      cases Transport.treats_of_eq made established with
      | refused calm => simp [Fatal, calm]
  | dies busy established =>
      cases Transport.treats_of_eq made established with
      | panicked tcp => simp [Fatal, tcp]
      | lapsed kept lapses => simp [Fatal, lapses.not_panics]
  | aborts busy established =>
      cases Transport.treats_of_eq made established with
      | aborted quic panics => simp [Fatal, quic, panics]
  | _ => simp

end moves
end Listener

/-- The connections among those of a queue. -/
def Emitted.sent : Emitted A → List (Connection A)
  | .connection conn => [conn]
  | .nothing | .error | .abort => []

namespace Listener
variable {around : Surroundings} {x x' : Listener A} {act : ListenerAct} {out : Emitted A}

theorem handed_moves (moves : Moves S C around x act x' out) : x'.handed = x.handed ++ out.sent := by
  cases moves with
  | passes => rfl
  | _ => exact (List.append_nil _).symm

/-- Nothing is lost while somebody can accept, and so nothing has to be reported. -/
theorem kept_moves (receiving : around.receiving = true) (silent : x.forwarding ≠ .reporting)
    (moves : Moves S C around x act x' out) :
    x'.lost = x.lost ∧ x'.forwarding ≠ .reporting ∧ out ≠ .error := by
  cases moves with
  | loses full closed => rw [closed] at receiving; cases receiving
  | reports busy => exact absurd busy silent
  | logs busy => exact absurd busy silent
  | passes => exact ⟨rfl, by simp, by simp⟩
  | takes => exact ⟨rfl, by simp, by simp⟩
  | stops => exact ⟨rfl, by simp, by simp⟩
  | _ => exact ⟨rfl, silent, by simp⟩

/-- A task that has ended does nothing more; only its forwarder does. -/
theorem ended_stays (ended : x.accepting = .ended) (moves : Moves S C around x act x' out) :
    x'.accepting = .ended ∧ x'.made = x.made := by
  cases moves with
  | arrives waiting => rw [ended] at waiting; cases waiting
  | fails => exact ⟨rfl, rfl⟩
  | leaves busy => rw [ended] at busy; cases busy
  | makes busy => rw [ended] at busy; cases busy
  | refuses busy => rw [ended] at busy; cases busy
  | aborts => exact ⟨ended, rfl⟩
  | sends full => rw [ended] at full; cases full
  | dies | orphaned => exact ⟨rfl, rfl⟩
  | takes | stops | passes | loses | reports | logs => exact ⟨ended, rfl⟩

theorem sent_of_closed (closed : around.receiving = false) (moves : Moves S C around x act x' out) :
    out.sent = [] := by
  cases moves with
  | passes full receiving room => rw [closed] at receiving; cases receiving
  | _ => rfl

theorem listening_of_error (moves : Moves S C around x act x' .error) : around.listening = true := by
  cases moves with
  | reports busy listening room => exact listening

end Listener

/-! ### The endpoint -/

/-- The connections of one listener in a queue. -/
def ofListener (i : Nat) (queue : List (Nat × Connection A)) : List (Connection A) :=
  queue.filterMap fun p => if p.1 = i then some p.2 else none

theorem ofListener_append (i : Nat) (l m : List (Nat × Connection A)) :
    ofListener i (l ++ m) = ofListener i l ++ ofListener i m := List.filterMap_append

theorem ofListener_own (i : Nat) (l : List (Connection A)) : ofListener i (l.map (i, ·)) = l := by
  induction l with
  | nil => rfl
  | cons conn l ih => simp [ofListener] at ih ⊢

theorem ofListener_other {i j : Nat} (other : j ≠ i) (l : List (Connection A)) :
    ofListener i (l.map (j, ·)) = [] := by
  induction l with
  | nil => rfl
  | cons conn l ih => simp [ofListener, other] at ih ⊢

namespace Hub
variable {h h' : Hub A} {config : TransportConfig} {labels : List (Label A)} {i : Nat} {x : Listener A}

/-- All that `accept` has returned or will return next. -/
def delivered (h : Hub A) : List (Nat × Connection A) := h.accepted ++ h.connections

/-- What is known of a listener in an endpoint that took these steps. -/
structure Tracked (C : Crates) (config : TransportConfig) (labels : List (Label A)) (h : Hub A)
    (i : Nat) (x : Listener A) : Prop where
  whole : x.Whole
  stamped : x.Stamped C config (fun act => Label.listener i act ∈ labels)
  ended : x.accepting = .ended ↔
    ∃ act, Label.listener i act ∈ labels ∧ Listener.Ends C x.transport.kind act
  calm : h.aborted = false →
    ∀ peer, Label.listener i (.finishes (some peer)) ∈ labels → ¬ Fatal C x.transport.kind peer
  passed : ofListener i h.delivered <+: x.handed
  current : h.receiving = true →
    ofListener i h.delivered = x.handed ∧ x.lost = [] ∧ x.forwarding ≠ .reporting

structure Sound (C : Crates) (config : TransportConfig) (labels : List (Label A)) (h : Hub A) :
    Prop where
  configured : h.config = config
  tracked : ∀ i x, h.listeners[i]? = some x → Tracked C config labels h i x
  fresh : ∀ i, h.listeners.length ≤ i →
    ofListener i h.delivered = [] ∧ ∀ act, Label.listener i act ∉ labels
  quiet : h.events = []
  fatal : h.aborted = true → ∃ i x peer, h.listeners[i]? = some x ∧
    Label.listener i (.finishes (some peer)) ∈ labels ∧ Fatal C x.transport.kind peer

theorem sound_spawn (C : Crates) (actor : EndpointActor A) : Sound C actor.config [] (spawn actor) where
  configured := rfl
  tracked := by
    intro i x found
    cases found
  fresh := by
    intro i _
    exact ⟨rfl, fun act member => by cases member⟩
  quiet := rfl
  fatal := by
    intro aborted
    cases aborted

/-- A step of nobody's listener: what was delivered stays the same, unless the last receiver
goes. -/
structure Aside (h h' : Hub A) : Prop where
  config : h'.config = h.config
  events : h'.events = h.events
  aborted : h'.aborted = h.aborted
  delivered : h'.delivered <+: h.delivered
  receiving : h'.receiving = true → h.receiving = true ∧ h'.delivered = h.delivered

theorem Tracked.aside {label : Label A} (tracked : Tracked C config labels h i x) (aside : Aside h h')
    (other : ∀ j act, label ≠ .listener j act) : Tracked C config (labels ++ [label]) h' i x := by
  have same : ∀ act, Label.listener i act ∈ labels ++ [label] ↔ Label.listener i act ∈ labels := by
    intro act
    rw [List.mem_append, List.mem_singleton]
    exact or_iff_left fun own => other i act own.symm
  refine ⟨tracked.whole, ?_, ?_, ?_, ?_, ?_⟩
  · exact tracked.stamped.mono fun act => (same act).mpr
  · simp only [same]
    exact tracked.ended
  · simp only [same, aside.aborted]
    exact tracked.calm
  · exact (aside.delivered.filterMap _).trans tracked.passed
  · intro receiving
    obtain ⟨before, unchanged⟩ := aside.receiving receiving
    rw [unchanged]
    exact tracked.current before

theorem Sound.aside {label : Label A} (sound : Sound C config labels h) (aside : Aside h h')
    (other : ∀ j act, label ≠ .listener j act) (listeners : h'.listeners = h.listeners) :
    Sound C config (labels ++ [label]) h' where
  configured := aside.config.trans sound.configured
  tracked := by
    rw [listeners]
    intro i x found
    exact (sound.tracked i x found).aside aside other
  fresh := by
    rw [listeners]
    intro i beyond
    obtain ⟨none_delivered, unseen⟩ := sound.fresh i beyond
    constructor
    · have part := aside.delivered.filterMap fun p => if p.1 = i then some p.2 else none
      rw [ofListener] at none_delivered
      rw [none_delivered] at part
      exact List.prefix_nil.mp part
    · intro act member
      rcases List.mem_append.mp member with old | new
      · exact unseen act old
      · exact other i act (List.mem_singleton.mp new).symm
  quiet := aside.events.trans sound.quiet
  fatal := by
    rw [aside.aborted, listeners]
    intro aborted
    obtain ⟨i, x, peer, found, seen, fatal⟩ := sound.fatal aborted
    exact ⟨i, x, peer, found, List.mem_append_left _ seen, fatal⟩

theorem aside_close (h : Hub A) : Aside h h.close := by
  unfold close
  split
  case isTrue receiving => exact ⟨rfl, rfl, rfl, List.prefix_refl _, fun _ => ⟨receiving, rfl⟩⟩
  case isFalse closed =>
      refine ⟨rfl, rfl, rfl, ?_, fun receiving => absurd receiving closed⟩
      simp only [delivered, List.append_nil, List.prefix_append]

theorem Aside.trans {h'' : Hub A} (first : Aside h h') (second : Aside h' h'') : Aside h h'' where
  config := second.config.trans first.config
  events := second.events.trans first.events
  aborted := second.aborted.trans first.aborted
  delivered := second.delivered.trans first.delivered
  receiving := by
    intro receiving
    obtain ⟨later, same⟩ := second.receiving receiving
    obtain ⟨before, earlier⟩ := first.receiving later
    exact ⟨before, same.trans earlier⟩

/-- A change to what is not delivered. -/
theorem aside_of_eq (config : h'.config = h.config) (events : h'.events = h.events)
    (aborted : h'.aborted = h.aborted) (delivered : h'.delivered = h.delivered)
    (receiving : h'.receiving = true → h.receiving = true) : Aside h h' :=
  ⟨config, events, aborted, delivered ▸ List.prefix_refl _, fun open_ => ⟨receiving open_, delivered⟩⟩

@[simp] theorem emit_listeners (h : Hub A) (i : Nat) (out : Emitted A) :
    (h.emit i out).listeners = h.listeners := by
  cases out <;> rfl

theorem receiving_of_emit {out : Emitted A} (open_ : (h.emit i out).receiving = true) :
    h.receiving = true := by
  cases out with
  | nothing | connection | error => exact open_
  | abort => cases open_

theorem emit_aborted {out : Emitted A} (running : h.aborted = false) :
    (h.emit i out).aborted = true ↔ out = .abort := by
  cases out <;> simp [emit, running]

@[simp] theorem emit_config (h : Hub A) (i : Nat) (out : Emitted A) : (h.emit i out).config = h.config := by
  cases out <;> rfl

@[simp] theorem emit_delivered (h : Hub A) (i : Nat) (out : Emitted A) :
    (h.emit i out).delivered = h.delivered ++ out.sent.map (i, ·) := by
  cases out <;> simp [emit, delivered, Emitted.sent]

theorem receiving_of_endpoint (running : h.aborted = false) (alive : h.endpoint = true) :
    h.receiving = true := by
  rw [receiving, running, alive]
  rfl

theorem receiving_of_handles (running : h.aborted = false) (some_handle : 0 < h.handles) :
    h.receiving = true := by
  simp [receiving, running, some_handle]

theorem running_of_receiving (open_ : h.receiving = true) : h.aborted = false := by
  rw [receiving, Bool.and_eq_true, Bool.not_eq_true'] at open_
  exact open_.1

theorem step_eq_some {label : Label A} :
    h.step S C label = some h' ↔ h.aborted = false ∧ h.act S C label = some h' := by
  unfold Hub.step
  cases h.aborted <;> simp

/-- What other listeners do changes nothing for a listener. -/
theorem Tracked.elsewhere {j : Nat} {act : ListenerAct} (tracked : Tracked C config labels h i x)
    (other : j ≠ i) (running : h.aborted = false) (receiving : h'.receiving = true → h.receiving = true)
    (delivered : ofListener i h'.delivered = ofListener i h.delivered) :
    Tracked C config (labels ++ [.listener j act]) h' i x := by
  have same : ∀ a, Label.listener i a ∈ labels ++ [Label.listener j act] ↔ Label.listener i a ∈ labels := by
    intro a
    rw [List.mem_append, List.mem_singleton]
    refine or_iff_left fun own => ?_
    cases own
    exact other rfl
  refine ⟨tracked.whole, tracked.stamped.mono fun a => (same a).mpr, ?_, ?_, ?_, ?_⟩
  · simp only [same]
    exact tracked.ended
  · simp only [same]
    exact fun _ => tracked.calm running
  · rw [delivered]
    exact tracked.passed
  · rw [delivered]
    exact fun open_ => tracked.current (receiving open_)

theorem Tracked.moves {act : ListenerAct} {x' : Listener A} {out : Emitted A}
    (tracked : Tracked C config labels h i x) (moves : Listener.Moves S C h.surroundings x act x' out)
    (running : h.aborted = false) (aborted : h'.aborted = false → out ≠ .abort)
    (receiving : h'.receiving = true → h.receiving = true)
    (delivered : ofListener i h'.delivered = ofListener i h.delivered ++ out.sent) :
    Tracked C config (labels ++ [.listener i act]) h' i x' := by
  have now : Label.listener i act ∈ labels ++ [Label.listener i act] :=
    List.mem_append_right labels List.mem_cons_self
  have earlier : ∀ a, Label.listener i a ∈ labels → Label.listener i a ∈ labels ++ [Label.listener i act] :=
    fun a => List.mem_append_left _
  have made := tracked.stamped.transport
  refine ⟨?_, ?_, ?_, ?_, ?_, ?_⟩
  · exact tracked.whole.moves (fun open_ => (tracked.current open_).2.1) moves
  · exact (tracked.stamped.mono earlier).moves now moves
  · rw [Listener.ended_moves tracked.whole made moves, tracked.ended, Listener.kind_moves made moves]
    constructor
    · rintro (⟨a, old, ends⟩ | ends)
      · exact ⟨a, earlier a old, ends⟩
      · exact ⟨act, now, ends⟩
    · rintro ⟨a, member, ends⟩
      rcases List.mem_append.mp member with old | new
      · exact .inl ⟨a, old, ends⟩
      · cases List.mem_singleton.mp new
        exact .inr ends
  · intro calm peer member fatal
    rw [Listener.kind_moves made moves] at fatal
    rcases List.mem_append.mp member with old | new
    · exact tracked.calm running peer old fatal
    · cases List.mem_singleton.mp new
      exact aborted calm ((Listener.abort_moves made moves).mpr ⟨peer, rfl, fatal⟩)
  · rw [delivered, Listener.handed_moves moves]
    cases open_ : h.receiving with
    | true => exact (tracked.current open_).1 ▸ List.prefix_refl _
    | false =>
        rw [Listener.sent_of_closed open_ moves, List.append_nil, List.append_nil]
        exact tracked.passed
  · intro open_
    obtain ⟨all, none_lost, silent⟩ := tracked.current (receiving open_)
    obtain ⟨same, still, -⟩ := Listener.kept_moves (receiving open_) silent moves
    exact ⟨by rw [delivered, all, Listener.handed_moves moves], same.trans none_lost, still⟩

/-- A step of a listener, with what it finds. -/
theorem Sound.listener {act : ListenerAct} {x' : Listener A} {out : Emitted A}
    (sound : Sound C config labels h) (running : h.aborted = false) (found : h.listeners[i]? = some x)
    (moves : Listener.Moves S C h.surroundings x act x' out) :
    Sound C config (labels ++ [.listener i act]) ({ h with listeners := h.listeners.set i x' }.emit i out) := by
  have own := sound.tracked i x found
  have bound : i < h.listeners.length := (List.getElem?_eq_some_iff.mp found).1
  have goesOn : ({ h with listeners := h.listeners.set i x' } : Hub A).aborted = false := running
  refine ⟨by rw [emit_config]; exact sound.configured, ?_, ?_, ?_, ?_⟩
  · intro j y there
    rw [emit_listeners] at there
    by_cases same : i = j
    · subst same
      rw [List.getElem?_set_self bound] at there
      cases there
      refine own.moves moves running (fun calm aborts => ?_) receiving_of_emit ?_
      · rw [(emit_aborted goesOn).mpr aborts] at calm
        cases calm
      · rw [emit_delivered, ofListener_append, ofListener_own]
        rfl
    · rw [List.getElem?_set_ne same] at there
      refine (sound.tracked j y there).elsewhere same running receiving_of_emit ?_
      rw [emit_delivered, ofListener_append, ofListener_other same, List.append_nil]
      rfl
  · intro j beyond
    rw [emit_listeners, List.length_set] at beyond
    obtain ⟨none_delivered, unseen⟩ := sound.fresh j beyond
    have other : i ≠ j := by omega
    constructor
    · rw [emit_delivered, ofListener_append, ofListener_other other, List.append_nil]
      exact none_delivered
    · intro a member
      rcases List.mem_append.mp member with old | new
      · exact unseen a old
      · cases List.mem_singleton.mp new
        exact other rfl
  · cases out with
    | nothing | connection conn | abort => exact sound.quiet
    | error =>
        have alive : h.endpoint = true := Listener.listening_of_error moves
        have open_ := receiving_of_endpoint running alive
        exact absurd rfl (Listener.kept_moves open_ (own.current open_).2.2 moves).2.2
  · intro aborted
    have made := own.stamped.transport
    obtain ⟨peer, rfl, fatal⟩ := (Listener.abort_moves made moves).mp ((emit_aborted goesOn).mp aborted)
    rw [← Listener.kind_moves made moves] at fatal
    rw [emit_listeners]
    exact ⟨i, x', peer, List.getElem?_set_self bound, List.mem_append_right _ List.mem_cons_self, fatal⟩

/-- A listener that was just made. -/
theorem Sound.listens {w : Attempt} {kind : TransportKind} {localAddr : A} {rest : List A}
    (sound : Sound C config labels h) (running : h.aborted = false) :
    Sound C config (labels ++ [.listen w])
      { h with actor := .listening rest,
               listeners := h.listeners ++ [.new (EndpointBuilder.transportOf h.config kind) localAddr] } := by
  have aside : Aside h { h with
      actor := .listening rest,
      listeners := h.listeners ++ [.new (EndpointBuilder.transportOf h.config kind) localAddr] } :=
    aside_of_eq rfl rfl rfl rfl id
  have others : Sound C config (labels ++ [.listen w]) { h with actor := .listening rest } :=
    sound.aside (aside_of_eq rfl rfl rfl rfl id) (by simp) rfl
  refine ⟨sound.configured, ?_, ?_, sound.quiet, fun aborted => ?_⟩
  · intro i x found
    rcases Nat.lt_or_ge i h.listeners.length with old | new
    · rw [List.getElem?_append_left old] at found
      exact (sound.tracked i x found).aside aside (by simp)
    · obtain ⟨none_delivered, unseen⟩ := others.fresh i new
      rw [List.getElem?_append_right new] at found
      obtain ⟨here, same⟩ := List.getElem?_eq_some_iff.mp found
      rw [List.getElem_singleton] at same
      subst same
      refine ⟨Listener.whole_new _ _, sound.configured ▸ Listener.stamped_new C h.config kind localAddr _,
        ?_, ?_, ?_, fun _ => ⟨none_delivered, rfl, by simp [Listener.new]⟩⟩
      · refine iff_of_false (by simp [Listener.new]) ?_
        rintro ⟨act, member, -⟩
        exact unseen act member
      · exact fun _ peer member => absurd member (unseen _)
      · exact none_delivered ▸ List.nil_prefix
  · intro i beyond
    rw [List.length_append] at beyond
    exact others.fresh i (Nat.le_of_add_right_le beyond)
  · have stopped : h.aborted = true := aborted
    rw [running] at stopped
    cases stopped

theorem Sound.listen {w : Attempt} (sound : Sound C config labels h) (running : h.aborted = false)
    (stepped : h.listen S w = some h') :
    Sound C config (labels ++ [.listen w]) h' := by
  unfold Hub.listen at stepped
  split at stepped
  case h_1 =>
      cases stepped
      exact sound.aside (aside_of_eq rfl rfl rfl rfl id) (by simp) rfl
  case h_2 addr rest _ =>
      split at stepped
      case h_1 =>
          cases stepped
          exact sound.aside (aside_of_eq rfl rfl rfl rfl id) (by simp) rfl
      case h_2 kind _ =>
          dsimp only at stepped
          split at stepped
          case h_1 localAddr _ =>
              cases stepped
              exact sound.listens running
          case h_2 =>
              cases stepped
              exact sound.aside (aside_of_eq rfl rfl rfl rfl id) (by simp) rfl
  case h_3 => cases stepped

@[simp] theorem close_listeners (h : Hub A) : h.close.listeners = h.listeners := by
  unfold close
  split <;> rfl

/-- A step that is no listener's and makes none. -/
theorem aside_of_act {label : Label A} (running : h.aborted = false)
    (stepped : h.act S C label = some h') (other : ∀ i act, label ≠ .listener i act)
    (still : ∀ w, label ≠ .listen w) : Aside h h' ∧ h'.listeners = h.listeners := by
  cases label with
  | listen w => exact absurd rfl (still w)
  | listener i act => exact absurd rfl (other i act)
  | command =>
      simp only [act] at stepped
      split at stepped
      case h_1 | h_2 =>
          cases stepped
          exact ⟨aside_of_eq rfl rfl rfl rfl id, rfl⟩
      case h_3 => cases stepped
  | cancel =>
      simp only [act] at stepped
      split at stepped
      case h_1 =>
          split_ifs at stepped
          cases stepped
          exact ⟨aside_of_eq rfl rfl rfl rfl id, rfl⟩
      case h_2 => cases stepped
  | accept =>
      simp only [act] at stepped
      split_ifs at stepped
      split at stepped
      case h_1 conn rest queue =>
          cases stepped
          refine ⟨aside_of_eq rfl rfl rfl ?_ id, rfl⟩
          simp only [delivered, queue, List.append_assoc, List.singleton_append]
      case h_2 => cases stepped
  | acceptNone =>
      simp only [act] at stepped
      split_ifs at stepped
      cases stepped
      exact ⟨aside_of_eq rfl rfl rfl rfl id, rfl⟩
  | sendCommand | shutdown =>
      simp only [act] at stepped
      split at stepped
      case isTrue =>
          split at stepped
          case h_1 =>
              cases stepped
              exact ⟨aside_of_eq rfl rfl rfl rfl id, rfl⟩
          case h_2 =>
              split_ifs at stepped
              cases stepped
              exact ⟨aside_of_eq rfl rfl rfl rfl id, rfl⟩
      case isFalse => cases stepped
  | getListener =>
      simp only [act] at stepped
      split_ifs at stepped with alive
      cases stepped
      exact ⟨aside_of_eq rfl rfl rfl rfl fun _ => receiving_of_endpoint running alive, rfl⟩
  | cloneHandle =>
      simp only [act] at stepped
      split_ifs at stepped with some_handle
      cases stepped
      exact ⟨aside_of_eq rfl rfl rfl rfl fun _ => receiving_of_handles running some_handle, rfl⟩
  | dropHandle =>
      simp only [act] at stepped
      split_ifs at stepped with some_handle
      cases stepped
      have first : Aside h { h with handles := h.handles - 1 } :=
        aside_of_eq rfl rfl rfl rfl fun _ => receiving_of_handles running some_handle
      exact ⟨first.trans (aside_close _), close_listeners _⟩
  | dropEndpoint =>
      simp only [act] at stepped
      split_ifs at stepped with alive
      cases stepped
      have first : Aside h { h with endpoint := false } :=
        aside_of_eq rfl rfl rfl rfl fun _ => receiving_of_endpoint running alive
      exact ⟨first.trans (aside_close _), close_listeners _⟩

theorem Sound.step {label : Label A} (sound : Sound C config labels h)
    (stepped : h.step S C label = some h') : Sound C config (labels ++ [label]) h' := by
  obtain ⟨running, acted⟩ := step_eq_some.mp stepped
  cases label with
  | listen w => exact sound.listen running acted
  | listener i act =>
      obtain ⟨x, found, rest⟩ := Option.bind_eq_some_iff.mp acted
      obtain ⟨⟨x', out⟩, moved, rfl⟩ := Option.map_eq_some_iff.mp rest
      exact sound.listener running found (Listener.moves_of_step moved)
  | _ =>
      have aside := aside_of_act running acted (by simp) (by simp)
      exact sound.aside aside.1 (by simp) aside.2

theorem sound_run {actor : EndpointActor A}
    (reached : run (Hub.step S C) (spawn actor) labels = some h) : Sound C actor.config labels h :=
  run_history (Sound C actor.config) (fun _ _ _ _ sound stepped => sound.step stepped) reached
    (sound_spawn C actor)

theorem Sound.accepted_made (sound : Sound C config labels h) (found : h.listeners[i]? = some x) :
    ofListener i h.accepted <+: x.made := by
  have tracked := sound.tracked i x found
  have handed : ofListener i h.accepted <+: x.handed := by
    refine List.IsPrefix.trans ?_ tracked.passed
    rw [delivered, ofListener_append]
    exact List.prefix_append _ _
  refine handed.trans ?_
  rw [← tracked.whole.parts, List.append_assoc]
  exact List.prefix_append _ _

theorem Sound.conserved (sound : Sound C config labels h) (found : h.listeners[i]? = some x)
    (receiving : h.receiving = true) :
    ofListener i h.accepted ++ ofListener i h.connections ++ x.inFlight = x.made := by
  have tracked := sound.tracked i x found
  obtain ⟨all, none_lost, -⟩ := tracked.current receiving
  rw [delivered, ofListener_append] at all
  rw [all, ← tracked.whole.parts, none_lost, List.append_nil]

end Hub

/-- In every order of the tasks' steps, `accept` returns the connections of each listener in
the order they were made, none twice; as long as somebody can accept, those not yet returned
are all still queued or on their way; and no event about one that is not is ever queued. -/
theorem accepted_in_order (S : StackAddrs A) (C : Crates) (actor : EndpointActor A)
    (labels : List (Hub.Label A)) (h : Hub A)
    (reached : run (Hub.step S C) (Hub.spawn actor) labels = some h) (i : Nat) (x : Listener A)
    (listener : h.listeners[i]? = some x) :
    ofListener i h.accepted <+: x.made ∧
      (h.receiving = true →
        ofListener i h.accepted ++ ofListener i h.connections ++ x.inFlight = x.made) ∧
      h.events = [] := by
  have sound := Hub.sound_run reached
  exact ⟨sound.accepted_made listener, sound.conserved listener, sound.quiet⟩

namespace Sample

def actor : EndpointActor (List Protocol) := ⟨config, [dialled], true⟩

/-- Every socket can be bound. -/
def binding : Attempt := { answering dialled with bind := some }

def client : SocketAddr := ⟨.V4 ⟨198, 51, 100, 9⟩, 50000⟩

/-- One client comes and is accepted. -/
def oneClient : List (Hub.Label (List Protocol)) :=
  [.listen binding, .listen binding, .listener 0 (.arrives client), .listener 0 (.finishes (some peer)),
    .listener 0 .sends, .listener 0 .takes, .listener 0 .passes, .accept]

/-- A second client comes while the first is on its way. -/
def twoClients : List (Hub.Label (List Protocol)) :=
  [.listen binding, .listen binding, .listener 0 (.arrives client), .listener 0 (.finishes (some peer)),
    .listener 0 .sends, .listener 0 (.arrives client), .listener 0 .takes,
    .listener 0 (.finishes (some peer)), .listener 0 .passes, .listener 0 .sends, .accept, .listener 0 .takes,
    .listener 0 .passes, .accept]

theorem twoClients_runs : ∃ h x, run (Hub.step stackAddrs (crates uri)) (Hub.spawn actor) twoClients = some h ∧
    h.listeners[0]? = some x ∧ x.made.length = 2 ∧
    (ofListener 0 h.accepted).map Connection.sessionId = [some 1, some 2] := by
  have runs : ((run (Hub.step stackAddrs (crates uri)) (Hub.spawn actor) twoClients).bind fun h =>
      (h.listeners[0]?).map fun x => (x.made.length, (ofListener 0 h.accepted).map Connection.sessionId)) =
        some (2, [some 1, some 2]) := by
    decide +kernel
  obtain ⟨h, reached, rest⟩ := Option.bind_eq_some_iff.mp runs
  obtain ⟨x, listener, both⟩ := Option.map_eq_some_iff.mp rest
  exact ⟨h, x, reached, listener, congrArg Prod.fst both, congrArg Prod.snd both⟩

end Sample

theorem accepted_in_order_two_clients : ∃ h x,
    run (Hub.step Sample.stackAddrs (Sample.crates Sample.uri)) (Hub.spawn Sample.actor)
      Sample.twoClients = some h ∧ h.listeners[0]? = some x ∧ x.made.length = 2 ∧
      (ofListener 0 h.accepted).map Connection.sessionId = [some 1, some 2] ∧
      ofListener 0 h.accepted <+: x.made := by
  obtain ⟨h, x, reached, listener, made, ids⟩ := Sample.twoClients_runs
  exact ⟨h, x, reached, listener, made, ids,
    (accepted_in_order _ _ Sample.actor Sample.twoClients h reached 0 x listener).1⟩

/-- Every connection that `accept` returns is an incoming one with the own node ID, was
authenticated by a client that its listener finished a handshake with, and on TCP carries the
session ID that counts the connections of that listener. -/
theorem accepted_authenticated (S : StackAddrs A) (C : Crates) (actor : EndpointActor A)
    (labels : List (Hub.Label A)) (h : Hub A)
    (reached : run (Hub.step S C) (Hub.spawn actor) labels = some h) (i k : Nat) (conn : Connection A)
    (accepted : (ofListener i h.accepted)[k]? = some conn) :
    ∃ x, h.listeners[i]? = some x ∧ conn.Inbound actor.config x.localAddr ∧
      conn.sessionId = x.transport.sessionIdAt k ∧
      ∃ peer, Hub.Label.listener i (.finishes (some peer)) ∈ labels ∧
        Presents C peer conn.remoteNodeId := by
  have sound := Hub.sound_run reached
  rcases Nat.lt_or_ge i h.listeners.length with there | beyond
  · have listener := List.getElem?_eq_getElem there
    have tracked := sound.tracked i _ listener
    obtain ⟨rest, whole⟩ := sound.accepted_made listener
    have made : h.listeners[i].made[k]? = some conn := by
      rw [← whole, List.getElem?_append_left (List.getElem?_eq_some_iff.mp accepted).1]
      exact accepted
    obtain ⟨inbound, authenticated⟩ := tracked.stamped.authenticated conn (List.mem_of_getElem? made)
    exact ⟨_, listener, inbound, tracked.stamped.numbered k conn made, authenticated⟩
  · have none_delivered := (sound.fresh i beyond).1
    rw [Hub.delivered, ofListener_append] at none_delivered
    rw [(List.append_eq_nil_iff.mp none_delivered).1] at accepted
    cases accepted

theorem accepted_authenticated_two_clients : ∃ h conn,
    run (Hub.step Sample.stackAddrs (Sample.crates Sample.uri)) (Hub.spawn Sample.actor)
      Sample.twoClients = some h ∧ (ofListener 0 h.accepted)[1]? = some conn ∧ conn.sessionId = some 2 ∧
      ∃ peer, Hub.Label.listener 0 (.finishes (some peer)) ∈ Sample.twoClients ∧
        Presents (Sample.crates Sample.uri) peer conn.remoteNodeId := by
  obtain ⟨h, x, reached, -, -, ids⟩ := Sample.twoClients_runs
  have second : ((ofListener 0 h.accepted)[1]?).map Connection.sessionId = some (some 2) := by
    rw [← List.getElem?_map, ids]
    rfl
  obtain ⟨conn, accepted, id⟩ := Option.map_eq_some_iff.mp second
  obtain ⟨-, -, -, -, authenticated⟩ :=
    accepted_authenticated _ _ Sample.actor Sample.twoClients h reached 0 1 conn accepted
  exact ⟨h, conn, reached, accepted, id, authenticated⟩

namespace Hub
variable {h h' : Hub A} {config : TransportConfig} {labels : List (Label A)} {i : Nat} {x : Listener A}

theorem listen_listeners {w : Attempt} (stepped : h.listen S w = some h') :
    ∃ new, h'.listeners = h.listeners ++ new := by
  unfold Hub.listen at stepped
  split at stepped
  case h_1 =>
      cases stepped
      exact ⟨[], (List.append_nil _).symm⟩
  case h_2 =>
      split at stepped
      case h_1 =>
          cases stepped
          exact ⟨[], (List.append_nil _).symm⟩
      case h_2 =>
          dsimp only at stepped
          split at stepped
          case h_1 =>
              cases stepped
              exact ⟨_, rfl⟩
          case h_2 =>
              cases stepped
              exact ⟨[], (List.append_nil _).symm⟩
  case h_3 => cases stepped

/-- What a listener becomes: it is left alone, or takes the step. -/
theorem listener_step {label : Label A} (stepped : h.step S C label = some h')
    (found : h.listeners[i]? = some x) :
    h'.listeners[i]? = some x ∨
      ∃ act x' out, label = .listener i act ∧ Listener.Moves S C h.surroundings x act x' out ∧
        h'.listeners[i]? = some x' := by
  have bound : i < h.listeners.length := (List.getElem?_eq_some_iff.mp found).1
  obtain ⟨running, acted⟩ := step_eq_some.mp stepped
  cases label with
  | listen w =>
      obtain ⟨new, grown⟩ := listen_listeners acted
      rw [grown, List.getElem?_append_left bound]
      exact .inl found
  | listener j act =>
      obtain ⟨y, there, rest⟩ := Option.bind_eq_some_iff.mp acted
      obtain ⟨⟨y', out⟩, moved, rfl⟩ := Option.map_eq_some_iff.mp rest
      rw [emit_listeners]
      by_cases same : j = i
      · subst same
        cases Option.some.inj (found.symm.trans there)
        exact .inr ⟨act, y', out, rfl, Listener.moves_of_step moved, List.getElem?_set_self bound⟩
      · rw [List.getElem?_set_ne same]
        exact .inl found
  | _ =>
      rw [(aside_of_act running acted (by simp) (by simp)).2]
      exact .inl found

/-- A listener keeps its number, and one that has ended makes no more connections. -/
theorem listener_later {more : List (Label A)} (later : run (Hub.step S C) h more = some h')
    (found : h.listeners[i]? = some x) :
    ∃ x', h'.listeners[i]? = some x' ∧
      (x.accepting = .ended → x'.accepting = .ended ∧ x'.made = x.made) := by
  refine run_invariant (fun _ => True) (fun g => ∃ x', g.listeners[i]? = some x' ∧
    (x.accepting = .ended → x'.accepting = .ended ∧ x'.made = x.made)) ?_ (fun _ _ => trivial) later
    ⟨x, found, fun ended => ⟨ended, rfl⟩⟩
  rintro g label g' - stepped ⟨y, there, over_⟩
  rcases listener_step stepped there with same | ⟨act, y', out, -, moves, now⟩
  · exact ⟨y, same, over_⟩
  · refine ⟨y', now, fun ended => ?_⟩
    obtain ⟨stopped, made⟩ := over_ ended
    obtain ⟨still, unmade⟩ := Listener.ended_stays stopped moves
    exact ⟨still, unmade.trans made⟩

end Hub

namespace Hub
variable {h h' : Hub A}

/-- A process that was aborted takes no step. -/
theorem run_aborted {more : List (Label A)} (aborted : h.aborted = true)
    (later : run (Hub.step S C) h more = some h') : more = [] := by
  cases more with
  | nil => rfl
  | cons label more =>
      obtain ⟨next, stepped, -⟩ := run_cons_some.mp later
      obtain ⟨running, -⟩ := step_eq_some.mp stepped
      rw [running] at aborted
      cases aborted

end Hub

namespace Sample

/-- Listens on TCP and on QUIC. -/
def bothActor : EndpointActor (List Protocol) := ⟨config, [dialled, dialledQuic], true⟩

/-- Presents a certificate with a URI of one character. -/
def panicking : PeerAnswer := { peer with endEntity := certificateDer ['x'] }

/-- The client takes the TCP listener, and then the process. -/
def lastClient : List (Hub.Label (List Protocol)) :=
  [.listen binding, .listen binding, .listen binding, .listener 0 (.arrives client),
    .listener 1 (.arrives client), .listener 0 (.finishes (some panicking)),
    .listener 1 (.finishes (some panicking))]

theorem lastClient_ends : ∃ h x,
    run (Hub.step stackAddrs (crates ['x'])) (Hub.spawn bothActor) lastClient = some h ∧
    h.listeners[0]? = some x ∧ x.accepting = .ended ∧ h.aborted = true := by
  have runs : ((run (Hub.step stackAddrs (crates ['x'])) (Hub.spawn bothActor) lastClient).bind fun h =>
      (h.listeners[0]?).map fun x => (decide (x.accepting = .ended), h.aborted)) = some (true, true) := by
    decide +kernel
  obtain ⟨h, reached, rest⟩ := Option.bind_eq_some_iff.mp runs
  obtain ⟨x, listener, both⟩ := Option.map_eq_some_iff.mp rest
  exact ⟨h, x, reached, listener, of_decide_eq_true (congrArg Prod.fst both), congrArg Prod.snd both⟩

end Sample

end Foctet.Net
