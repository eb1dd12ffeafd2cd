import CivicConnect.Net.IpAddr
import CivicConnect.Odns.Delivery

/-!
# Upstream resolution

The resolver sends the decrypted query from a fresh, unconnected UDP socket and
takes the first datagram that arrives there within five seconds, whoever sent
it. The DNS message parser belongs to another crate and enters as a parameter.
-/

namespace CivicConnect.Odns

open Net

structure SocketAddr where
  ip : IpAddr
  port : UInt16
  deriving DecidableEq

structure Datagram where
  sender : SocketAddr
  payload : Bytes
  deriving DecidableEq

/-- What a `recv_from` completes with, and after how many milliseconds. -/
structure Arrival where
  after : ℕ
  result : Except IoError Datagram

/-- How the socket operations of one resolution fare. -/
structure Network where
  bind : Except IoError Unit
  sendTo : Bytes → SocketAddr → Except IoError Unit
  arrivals : List Arrival

structure Message (Question : Type) where
  id : UInt16
  queries : List Question

/-- The DNS message parser. -/
structure DnsParser where
  Question : Type
  ProtoError : Type
  fromBytes : Bytes → Except ProtoError (Message Question)

inductive ResolveError (parser : DnsParser) where
  | io (err : IoError)
  | message (text : String)
  | proto (err : parser.ProtoError)

/-- Five seconds. -/
def upstreamTimeout : ℕ := 5000

def bufferSize : ℕ := 4096

/-- The outcome of `recv_from` under the timeout, if it completes in time. -/
def Network.received (net : Network) : Option (Except IoError Datagram) :=
  match net.arrivals with
  | [] => none
  | first :: _ => if first.after ≤ upstreamTimeout then some first.result else none

/-- A datagram fills the buffer from the front, and what does not fit is lost. -/
def fill (buf payload : Bytes) : Bytes × ℕ :=
  let data := payload.take buf.length
  (data ++ buf.drop data.length, data.length)

/-- Validate that the response is parseable DNS. -/
def validate (parser : DnsParser) (buf : Bytes) : Except (ResolveError parser) Bytes := do
  let _ ← (parser.fromBytes buf).mapError .proto
  return buf

/-- `upstream` is the address that the configured server name stands for. -/
def resolveUpstream (parser : DnsParser) (queryWire : Bytes) (upstream : SocketAddr)
    (net : Network) : Except (ResolveError parser) Bytes := do
  net.bind.mapError .io
  (net.sendTo queryWire upstream).mapError .io
  match net.received with
  | none => .error (.message "upstream DNS timeout")
  | some (.error err) => .error (.io err)
  | some (.ok datagram) =>
      let (buf, len) := fill (List.replicate bufferSize 0) datagram.payload
      validate parser (buf.take len)

/-- The response carries the identifier and the question section of the query. -/
def Answers (parser : DnsParser) (query response : Bytes) : Prop :=
  ∃ asked answer, parser.fromBytes query = .ok asked ∧ parser.fromBytes response = .ok answer ∧
    answer.id = asked.id ∧ answer.queries = asked.queries

/-- Whatever is relayed came from the upstream server and answers the query. -/
def RelaysAnswer (parser : DnsParser) (query : Bytes) (upstream : SocketAddr)
    (net : Network) : Prop :=
  ∀ buf, resolveUpstream parser query upstream net = .ok buf →
    ∃ datagram, net.received = some (.ok datagram) ∧ buf = datagram.payload.take bufferSize ∧
      datagram.sender = upstream ∧ Answers parser query buf

/-- The datagram that arrives first is from the upstream server and answers the
query, unless it is no DNS message at all or nothing is received. -/
def FirstIsAnswer (parser : DnsParser) (query : Bytes) (upstream : SocketAddr)
    (net : Network) : Prop :=
  net.bind = .ok () → net.sendTo query upstream = .ok () →
    ∀ datagram message, net.received = some (.ok datagram) →
      parser.fromBytes (datagram.payload.take bufferSize) = .ok message →
        datagram.sender = upstream ∧ Answers parser query (datagram.payload.take bufferSize)

variable {parser : DnsParser} {query : Bytes} {upstream : SocketAddr} {net : Network}

theorem take_fill (buf payload : Bytes) :
    (fill buf payload).1.take (fill buf payload).2 = payload.take buf.length :=
  List.take_left

theorem validate_ok_iff {buf response : Bytes} :
    validate parser buf = .ok response ↔
      response = buf ∧ ∃ message, parser.fromBytes buf = .ok message := by
  rw [validate, Except.bind_ok_iff]
  constructor
  · rintro ⟨message, hparse, heq⟩
    exact ⟨(Except.ok.inj heq).symm, message, Except.mapError_ok_iff.mp hparse⟩
  · rintro ⟨rfl, message, hparse⟩
    exact ⟨message, Except.mapError_ok_iff.mpr hparse, rfl⟩

theorem resolveUpstream_received {datagram : Datagram} (hbind : net.bind = .ok ())
    (hsend : net.sendTo query upstream = .ok ()) (h : net.received = some (.ok datagram)) :
    resolveUpstream parser query upstream net =
      validate parser (datagram.payload.take bufferSize) := by
  have hbuf := take_fill (List.replicate bufferSize 0) datagram.payload
  rw [List.length_replicate] at hbuf
  rw [← hbuf, resolveUpstream, hbind, hsend, h]
  generalize List.replicate bufferSize (0 : UInt8) = buffer
  rfl

theorem received_of_ok {buf : Bytes} (h : resolveUpstream parser query upstream net = .ok buf) :
    net.bind = .ok () ∧ net.sendTo query upstream = .ok () ∧
      ∃ datagram, net.received = some (.ok datagram) := by
  rw [resolveUpstream, Except.bind_ok_iff] at h
  obtain ⟨_, hbind, h⟩ := h
  obtain ⟨_, hsend, h⟩ := Except.bind_ok_iff.mp h
  refine ⟨Except.mapError_ok_iff.mp hbind, Except.mapError_ok_iff.mp hsend, ?_⟩
  split at h
  · cases h
  · cases h
  · next datagram hreceived => exact ⟨datagram, hreceived⟩

/-- The sender is not looked at and the message is not compared with the query,
so that only the answer of the upstream server is relayed exactly when it is
that answer which arrives first. -/
theorem relaysAnswer_iff (parser : DnsParser) (query : Bytes) (upstream : SocketAddr)
    (net : Network) :
    RelaysAnswer parser query upstream net ↔ FirstIsAnswer parser query upstream net := by
  constructor
  · intro hrelays hbind hsend datagram message hreceived hparse
    have hok : resolveUpstream parser query upstream net = _ :=
      resolveUpstream_received hbind hsend hreceived
    rw [validate_ok_iff.mpr ⟨rfl, message, hparse⟩] at hok
    obtain ⟨datagram', hreceived', _, hsender, hanswers⟩ := hrelays _ hok
    rw [hreceived] at hreceived'
    obtain rfl := Except.ok.inj (Option.some.inj hreceived')
    exact ⟨hsender, hanswers⟩
  · intro hfirst buf hok
    obtain ⟨hbind, hsend, datagram, hreceived⟩ := received_of_ok hok
    rw [resolveUpstream_received hbind hsend hreceived, validate_ok_iff] at hok
    obtain ⟨rfl, message, hparse⟩ := hok
    obtain ⟨hsender, hanswers⟩ := hfirst hbind hsend datagram message hreceived hparse
    exact ⟨datagram, hreceived, rfl, hsender, hanswers⟩

/-- The root, type A, class IN. -/
def sampleQuestion : Bytes := [0, 0, 1, 0, 1]

/-- A query with the identifier 0x1234. -/
def sampleQuery : Bytes := [0x12, 0x34, 1, 0, 0, 1, 0, 0, 0, 0, 0, 0] ++ sampleQuestion

/-- A response to another query, with the identifier 0xABCD. -/
def strayResponse : Bytes := [0xAB, 0xCD, 0x81, 0x80, 0, 1, 0, 0, 0, 0, 0, 0] ++ sampleQuestion

/-- What the parser makes of the two messages; it is not asked about others. -/
def sampleParser : DnsParser where
  Question := Bytes
  ProtoError := Unit
  fromBytes bytes :=
    if bytes = sampleQuery then .ok ⟨0x1234, [sampleQuestion]⟩
    else if bytes = strayResponse then .ok ⟨0xABCD, [sampleQuestion]⟩
    else .error ()

def sampleUpstream : SocketAddr := ⟨.v4 1 1 1 1, 53⟩

/-- Nothing fails, and one datagram arrives after a millisecond. -/
def deliver (sender : SocketAddr) (payload : Bytes) : Network where
  bind := .ok ()
  sendTo _ _ := .ok ()
  arrivals := [⟨1, .ok ⟨sender, payload⟩⟩]

/-- A response to another query that arrives first is relayed, whoever sent it. -/
theorem stray_response_relayed :
    ¬ ∀ (parser : DnsParser) (query : Bytes) (upstream : SocketAddr) (net : Network),
      RelaysAnswer parser query upstream net := by
  intro hrelays
  have hok : resolveUpstream sampleParser sampleQuery sampleUpstream
      (deliver ⟨.v4 192 0 2 66, 5353⟩ strayResponse) = .ok strayResponse := by
    rw [resolveUpstream_received rfl rfl rfl]
    rfl
  obtain ⟨datagram, hreceived, _, hsender, _⟩ := hrelays _ _ _ _ _ hok
  obtain rfl := Except.ok.inj (Option.some.inj hreceived)
  exact absurd hsender (by decide)

end CivicConnect.Odns
