import CivicConnect.Odns.Rotation
import CivicConnect.Odns.Upstream

/-!
# Sessions

One connection of a client, from the query that it sends to the answer that it
gets. The proxy and the resolver each handle one frame and close; every hop may
lose the rest of a stream at any byte, and a hop that fails closes its
connection with nothing written.
-/

namespace CivicConnect.Odns

inductive SessionError (parser : DnsParser) where
  | connection (err : ConnectionError)
  | resolve (err : ResolveError parser)

/-- How many of the bytes written arrive, unless it is all of them, and how a
read past the last one ends. -/
structure Link where
  cut : Option ℕ
  ending : IoError

namespace Link

def arrives (link : Link) (written : Bytes) : Bytes :=
  match link.cut with
  | none => written
  | some n => written.take n

/-- A stream of `n` bytes arrives whole. -/
def Carries (link : Link) (n : ℕ) : Prop := ∀ k ∈ link.cut, n ≤ k

end Link

/-- What lies beyond the proxy: the connection to the resolver, its two
directions, and the resolver's way to the upstream server. -/
structure Route where
  connect : Except IoError Unit
  toResolver : Link
  toProxy : Link
  upstream : SocketAddr
  net : Network

section Handlers

variable (P : Primitives) (parser : DnsParser)

/-- The resolver's `handle_connection`, on the bytes that the proxy wrote: the
bytes written back. -/
def resolverConnection (secretKey : P.SecretKey) (route : Route) (written : Bytes) :
    Except (SessionError parser) Bytes := do
  let dnsWire ← (receiveQuery P route.toResolver.ending (route.toResolver.arrives written)
    secretKey).mapError .connection
  let _query ← (parser.fromBytes dnsWire).mapError fun err => .resolve (.proto err)
  let responseWire ← (resolveUpstream parser dnsWire route.upstream route.net).mapError .resolve
  let stream ← (writeFramed Sink.new responseWire).mapError fun err => .connection (.io err)
  return stream.written

/-- What a handler leaves on its stream. -/
def leftBehind (result : Except (SessionError parser) Bytes) : Bytes :=
  match result with
  | .ok written => written
  | .error _ => []

def forwardToResolver (secretKey : P.SecretKey) (route : Route) (encrypted : Bytes) :
    Except ConnectionError Bytes := do
  route.connect.mapError .io
  let stream ← (writeFramed Sink.new encrypted).mapError .io
  let answered := leftBehind parser (resolverConnection P parser secretKey route stream.written)
  let (response, _) ←
    (readFramed route.toProxy.ending (route.toProxy.arrives answered)).mapError .io
  return response

/-- The proxy's `handle_connection`, after the TLS handshake: the bytes written
to the client. The query is also parsed there, for the log alone. -/
def proxyConnection (publicKey : P.PublicKey) (secretKey : P.SecretKey) (route : Route)
    (coins : P.Coins) (nonce : Nonce) (ending : IoError) (client : Bytes) :
    Except ConnectionError Bytes := do
  let (dnsWire, _) ← (readFramed ending client).mapError .io
  let encrypted ← (P.encryptQuery dnsWire publicKey coins nonce).mapError .crypto
  let response ← forwardToResolver P parser secretKey route encrypted
  let stream ← (writeFramed Sink.new response).mapError .io
  return stream.written

end Handlers

/-- The resolver, asked for the query, comes back with the response: what it
first receives within the time, cut to the buffer and read as a DNS message. -/
def Resolves (parser : DnsParser) (route : Route) (query response : Bytes) : Prop :=
  (∃ asked, parser.fromBytes query = .ok asked) ∧ route.net.bind = .ok () ∧
    route.net.sendTo query route.upstream = .ok () ∧
      ∃ datagram answer, route.net.received = some (.ok datagram) ∧
        response = datagram.payload.take bufferSize ∧ parser.fromBytes response = .ok answer

section Links

variable {link : Link} {payload received rest : Bytes}

theorem length_frame (payload : Bytes) : (frame payload).length = 2 + payload.length := by
  rw [frame, List.length_append]
  rfl

/-- A frame that arrives in part is not read. -/
theorem readFramed_arrives_iff (hpayload : IsPayload payload) {ending : IoError} :
    readFramed ending (link.arrives (frame payload)) = .ok (received, rest) ↔
      link.Carries (2 + payload.length) ∧ received = payload ∧ rest = [] := by
  have hwhole : readFramed ending (frame payload) = .ok (payload, []) :=
    readFramed_ok_iff.mpr ⟨hpayload, (List.append_nil _).symm⟩
  cases hcut : link.cut with
  | none =>
      have harrives : link.arrives (frame payload) = frame payload := by rw [Link.arrives, hcut]
      have hcarries : link.Carries (2 + payload.length) := by
        intro k hk
        rw [hcut] at hk
        cases hk
      rw [harrives, hwhole, Except.ok.injEq, Prod.mk.injEq, eq_comm, @eq_comm _ [] rest]
      exact (and_iff_right hcarries).symm
  | some n =>
      have harrives : link.arrives (frame payload) = (frame payload).take n := by
        rw [Link.arrives, hcut]
      rw [harrives]
      constructor
      · intro hread
        obtain ⟨hreceived, htake⟩ := readFramed_ok_iff.mp hread
        have hsplit : frame payload = frame received ++ (rest ++ (frame payload).drop n) := by
          rw [← List.append_assoc, ← htake, List.take_append_drop]
        have hboth : readFramed ending (frame payload) =
            .ok (received, rest ++ (frame payload).drop n) :=
          readFramed_ok_iff.mpr ⟨hreceived, hsplit⟩
        rw [hwhole, Except.ok.injEq, Prod.mk.injEq] at hboth
        obtain ⟨hsame, hnil⟩ := hboth
        obtain ⟨hrest, hdrop⟩ := List.append_eq_nil_iff.mp hnil.symm
        refine ⟨?_, hsame.symm, hrest⟩
        intro k hk
        rw [hcut] at hk
        obtain rfl := Option.some.inj hk
        rw [← length_frame]
        exact List.drop_eq_nil_iff.mp hdrop
      · rintro ⟨hcarries, rfl, rfl⟩
        have hn : (frame received).length ≤ n := by
          rw [length_frame]
          exact hcarries n hcut
        rw [List.take_of_length_le hn]
        exact hwhole

theorem readFramed_arrives_nil (ending : IoError) :
    readFramed ending (link.arrives []) ≠ .ok (received, rest) := by
  intro hread
  have hnil : link.arrives [] = [] := by
    rw [Link.arrives]
    split
    · rfl
    · exact List.take_nil
  obtain ⟨_, hframe⟩ := readFramed_ok_iff.mp hread
  rw [hnil] at hframe
  cases hframe

end Links

section Answers

variable {P : Primitives} {parser : DnsParser} {publicKey : P.PublicKey}
  {secretKey : P.SecretKey} {route : Route} {coins : P.Coins} {nonce : Nonce}
  {ending : IoError} {client query blob response written : Bytes}

theorem resolveUpstream_ok_iff : resolveUpstream parser query route.upstream route.net =
    .ok response ↔ route.net.bind = .ok () ∧ route.net.sendTo query route.upstream = .ok () ∧
      ∃ datagram answer, route.net.received = some (.ok datagram) ∧
        response = datagram.payload.take bufferSize ∧ parser.fromBytes response = .ok answer := by
  constructor
  · intro h
    obtain ⟨hbind, hsend, datagram, hreceived⟩ := received_of_ok h
    rw [resolveUpstream_received hbind hsend hreceived, validate_ok_iff] at h
    obtain ⟨rfl, answer, hparse⟩ := h
    exact ⟨hbind, hsend, datagram, answer, hreceived, rfl, hparse⟩
  · rintro ⟨hbind, hsend, datagram, answer, hreceived, rfl, hparse⟩
    rw [resolveUpstream_received hbind hsend hreceived, validate_ok_iff]
    exact ⟨rfl, answer, hparse⟩

theorem receiveQuery_ok_iff {stream : Bytes} :
    receiveQuery P ending stream secretKey = .ok query ↔
      ∃ encrypted rest, readFramed ending stream = .ok (encrypted, rest) ∧
        P.decryptQuery encrypted secretKey = .ok (.ok query) := by
  rw [receiveQuery, Except.bind_ok_iff]
  constructor
  · rintro ⟨⟨encrypted, rest⟩, hread, hdecrypt⟩
    refine ⟨encrypted, rest, Except.mapError_ok_iff.mp hread, ?_⟩
    dsimp only at hdecrypt
    split at hdecrypt
    · cases hdecrypt
    · next result hresult =>
        rw [hresult, Except.mapError_ok_iff.mp hdecrypt]
  · rintro ⟨encrypted, rest, hread, hdecrypt⟩
    refine ⟨(encrypted, rest), Except.mapError_ok_iff.mpr hread, ?_⟩
    dsimp only
    rw [hdecrypt]
    rfl

theorem Resolves.length_le (h : Resolves parser route query response) :
    response.length ≤ bufferSize := by
  obtain ⟨_, _, _, datagram, _, _, rfl, _⟩ := h
  exact List.length_take_le _ _

/-- The resolver writes the frame of what it resolves the decrypted query to. -/
theorem resolverConnection_ok_iff {stream : Bytes} :
    resolverConnection P parser secretKey route written = .ok stream ↔
      ∃ query response, receiveQuery P route.toResolver.ending (route.toResolver.arrives written)
        secretKey = .ok query ∧ Resolves parser route query response ∧
          stream = frame response := by
  rw [resolverConnection, Except.bind_ok_iff]
  constructor
  · rintro ⟨query, hquery, h⟩
    obtain ⟨asked, hasked, h⟩ := Except.bind_ok_iff.mp h
    obtain ⟨response, hresponse, h⟩ := Except.bind_ok_iff.mp h
    obtain ⟨sink, hsink, h⟩ := Except.bind_ok_iff.mp h
    rw [Except.mapError_ok_iff] at hquery hasked hresponse hsink
    rw [resolveUpstream_ok_iff] at hresponse
    refine ⟨query, response, hquery, ⟨⟨asked, hasked⟩, hresponse⟩, ?_⟩
    rw [← Except.ok.inj h, (writeFramed_ok hsink).2]
    rfl
  · rintro ⟨query, response, hquery, hresolves, rfl⟩
    have hsize : response.length ≤ maxPayload := Nat.le_trans hresolves.length_le (by decide)
    obtain ⟨⟨asked, hasked⟩, hresponse⟩ := hresolves
    refine ⟨query, Except.mapError_ok_iff.mpr hquery, ?_⟩
    refine Except.bind_ok_iff.mpr ⟨asked, Except.mapError_ok_iff.mpr hasked, ?_⟩
    refine Except.bind_ok_iff.mpr
      ⟨response, Except.mapError_ok_iff.mpr (resolveUpstream_ok_iff.mpr hresponse), ?_⟩
    rw [writeFramed_new hsize]
    rfl

/-- What the proxy gets back is the resolver's response, if it is not empty and
arrives whole. -/
theorem readAnswer_ok_iff {stream : Except (SessionError parser) Bytes} {rest : Bytes}
    (hframe : ∀ bytes, stream = .ok bytes → ∃ payload, payload.length ≤ maxPayload ∧
      bytes = frame payload) :
    readFramed route.toProxy.ending (route.toProxy.arrives (leftBehind parser stream)) =
        .ok (response, rest) ↔
      stream = .ok (frame response) ∧ response ≠ [] ∧
        route.toProxy.Carries (2 + response.length) ∧ rest = [] := by
  cases stream with
  | error err =>
      rw [leftBehind]
      exact iff_of_false (readFramed_arrives_nil _) fun h => nomatch h.1
  | ok bytes =>
      obtain ⟨payload, hsize, rfl⟩ := hframe bytes rfl
      rw [leftBehind]
      constructor
      · intro hread
        have hne : payload ≠ [] := by
          rintro rfl
          obtain ⟨hresponse, harrives⟩ := readFramed_ok_iff.mp hread
          have hlong : (route.toProxy.arrives (frame [])).length ≤ 2 := by
            rw [Link.arrives]
            split
            · exact Nat.le_refl 2
            · exact List.length_take_le' _ _
          rw [harrives, List.length_append, length_frame] at hlong
          have := hresponse.1
          omega
        have hpayload : IsPayload payload := ⟨List.length_pos_iff.mpr hne, hsize⟩
        obtain ⟨hcarries, rfl, rfl⟩ := (readFramed_arrives_iff hpayload).mp hread
        exact ⟨rfl, hne, hcarries, rfl⟩
      · rintro ⟨hsame, hne, hcarries, rfl⟩
        have hpayload : payload = response := by
          have hdrop := congrArg (List.drop 2) (Except.ok.inj hsame)
          exact hdrop
        subst hpayload
        exact (readFramed_arrives_iff ⟨List.length_pos_iff.mpr hne, hsize⟩).mpr
          ⟨hcarries, rfl, rfl⟩

theorem receiveQuery_arrives_iff {blob : Bytes} (hblob : IsPayload blob) :
    receiveQuery P route.toResolver.ending (route.toResolver.arrives (frame blob)) secretKey =
        .ok query ↔
      route.toResolver.Carries (2 + blob.length) ∧
        P.decryptQuery blob secretKey = .ok (.ok query) := by
  rw [receiveQuery_ok_iff]
  constructor
  · rintro ⟨encrypted, rest, hread, hdecrypt⟩
    obtain ⟨hcarries, rfl, rfl⟩ := (readFramed_arrives_iff hblob).mp hread
    exact ⟨hcarries, hdecrypt⟩
  · rintro ⟨hcarries, hdecrypt⟩
    exact ⟨blob, [], (readFramed_arrives_iff hblob).mpr ⟨hcarries, rfl, rfl⟩, hdecrypt⟩

theorem forwardToResolver_ok_iff {encrypted : Bytes} :
    forwardToResolver P parser secretKey route encrypted = .ok response ↔
      route.connect = .ok () ∧ encrypted.length ≤ maxPayload ∧
        resolverConnection P parser secretKey route (frame encrypted) = .ok (frame response) ∧
          response ≠ [] ∧ route.toProxy.Carries (2 + response.length) := by
  have hframe : ∀ bytes,
      resolverConnection P parser secretKey route (frame encrypted) = .ok bytes →
        ∃ payload, payload.length ≤ maxPayload ∧ bytes = frame payload := by
    intro bytes hbytes
    obtain ⟨query, payload, _, hresolves, rfl⟩ := resolverConnection_ok_iff.mp hbytes
    exact ⟨payload, Nat.le_trans hresolves.length_le (by decide), rfl⟩
  rw [forwardToResolver, Except.bind_ok_iff]
  constructor
  · rintro ⟨_, hconnect, h⟩
    obtain ⟨sink, hsink, h⟩ := Except.bind_ok_iff.mp h
    obtain ⟨⟨payload, rest⟩, hread, h⟩ := Except.bind_ok_iff.mp h
    rw [Except.mapError_ok_iff] at hconnect hsink hread
    obtain ⟨hsize, hwritten⟩ := writeFramed_ok hsink
    have hstream : sink.written = frame encrypted := hwritten
    rw [hstream, readAnswer_ok_iff hframe] at hread
    obtain ⟨hanswer, hne, hcarries, _⟩ := hread
    obtain rfl := Except.ok.inj h
    exact ⟨hconnect, hsize, hanswer, hne, hcarries⟩
  · rintro ⟨hconnect, hsize, hanswer, hne, hcarries⟩
    refine ⟨(), Except.mapError_ok_iff.mpr hconnect, ?_⟩
    refine Except.bind_ok_iff.mpr
      ⟨⟨frame encrypted, []⟩, Except.mapError_ok_iff.mpr (writeFramed_new hsize), ?_⟩
    refine Except.bind_ok_iff.mpr ⟨(response, []), Except.mapError_ok_iff.mpr ?_, rfl⟩
    exact (readAnswer_ok_iff hframe).mpr ⟨hanswer, hne, hcarries, rfl⟩

/-- Who gets an answer, whatever the two keys have to do with each other. -/
theorem proxyConnection_ok_iff (hP : P.Lawful) :
    proxyConnection P parser publicKey secretKey route coins nonce ending client = .ok written ↔
      ∃ query rest blob decrypted response, readFramed ending client = .ok (query, rest) ∧
        P.encryptQuery query publicKey coins nonce = .ok blob ∧ blob.length ≤ maxPayload ∧
        route.connect = .ok () ∧ route.toResolver.Carries (2 + blob.length) ∧
        P.decryptQuery blob secretKey = .ok (.ok decrypted) ∧
        Resolves parser route decrypted response ∧ response ≠ [] ∧
        route.toProxy.Carries (2 + response.length) ∧ written = frame response := by
  rw [proxyConnection, Except.bind_ok_iff]
  constructor
  · rintro ⟨⟨query, rest⟩, hread, h⟩
    obtain ⟨blob, hblob, h⟩ := Except.bind_ok_iff.mp h
    obtain ⟨response, hforward, h⟩ := Except.bind_ok_iff.mp h
    obtain ⟨sink, hsink, h⟩ := Except.bind_ok_iff.mp h
    rw [Except.mapError_ok_iff] at hread hblob hsink
    obtain ⟨hconnect, hsize, hanswer, hne, hback⟩ := forwardToResolver_ok_iff.mp hforward
    obtain ⟨decrypted, resolved, hreceive, hresolves, hframe⟩ :=
      resolverConnection_ok_iff.mp hanswer
    have hpayload : IsPayload blob := by
      refine ⟨?_, hsize⟩
      rw [hP.length_encryptQuery hblob, overhead, tagLen]
      omega
    obtain ⟨hcarries, hdecrypt⟩ := (receiveQuery_arrives_iff hpayload).mp hreceive
    obtain rfl : response = resolved := congrArg (List.drop 2) hframe
    refine ⟨query, rest, blob, decrypted, response, hread, hblob, hsize, hconnect, hcarries,
      hdecrypt, hresolves, hne, hback, ?_⟩
    rw [← Except.ok.inj h]
    exact (writeFramed_ok hsink).2
  · rintro ⟨query, rest, blob, decrypted, response, hread, hblob, hsize, hconnect, hcarries,
      hdecrypt, hresolves, hne, hback, rfl⟩
    have hpayload : IsPayload blob := by
      refine ⟨?_, hsize⟩
      rw [hP.length_encryptQuery hblob, overhead, tagLen]
      omega
    have hanswer : resolverConnection P parser secretKey route (frame blob) =
        .ok (frame response) := by
      apply resolverConnection_ok_iff.mpr
      exact ⟨decrypted, response, (receiveQuery_arrives_iff hpayload).mpr ⟨hcarries, hdecrypt⟩,
        hresolves, rfl⟩
    have hforward : forwardToResolver P parser secretKey route blob = .ok response :=
      forwardToResolver_ok_iff.mpr ⟨hconnect, hsize, hanswer, hne, hback⟩
    have hresponse : response.length ≤ maxPayload :=
      Nat.le_trans hresolves.length_le (by decide)
    refine ⟨(query, rest), Except.mapError_ok_iff.mpr hread, ?_⟩
    refine Except.bind_ok_iff.mpr ⟨blob, Except.mapError_ok_iff.mpr hblob, ?_⟩
    refine Except.bind_ok_iff.mpr ⟨response, hforward, ?_⟩
    rw [writeFramed_new hresponse]
    rfl

/-- With keys of one pair a client gets bytes exactly when its stream begins
with the frame of a query that fits when encrypted, both hops carry their
frames whole and the resolver resolves that query to something not empty; the
bytes are the frame of this response and nothing else. Where the query that
arrives, sealed as the proxy seals it, is refused under the key that the resolver
derives, no client gets a byte. -/
theorem session_answered_iff (hP : P.Lawful) :
    (P.Matching publicKey secretKey →
      ∀ written,
        proxyConnection P parser publicKey secretKey route coins nonce ending client =
            .ok written ↔
          ∃ query rest response, client = frame query ++ rest ∧ query ≠ [] ∧
            query.length ≤ maxPayload - overhead ∧ route.connect = .ok () ∧
            route.toResolver.Carries (2 + (query.length + overhead)) ∧
            Resolves parser route query response ∧ response ≠ [] ∧
            route.toProxy.Carries (2 + response.length) ∧ written = frame response) ∧
    ((∀ query rest, client = frame query ++ rest →
        P.Refuses publicKey secretKey coins nonce query) →
      ∀ written, proxyConnection P parser publicKey secretKey route coins nonce ending client ≠
        .ok written) := by
  have hover : overhead ≤ maxPayload := by decide
  constructor
  · intro hkeys written
    rw [proxyConnection_ok_iff hP]
    constructor
    · rintro ⟨query, rest, blob, decrypted, response, hread, hblob, hsize, hconnect, hcarries,
        hdecrypt, hresolves, hne, hback, rfl⟩
      obtain ⟨hquery, rfl⟩ := readFramed_ok_iff.mp hread
      rw [hP.decrypt_encrypt hkeys hblob] at hdecrypt
      obtain rfl := Except.ok.inj (Except.ok.inj hdecrypt)
      rw [hP.length_encryptQuery hblob] at hsize hcarries
      exact ⟨query, rest, response, rfl, List.length_pos_iff.mp hquery.1,
        Nat.le_sub_of_add_le hsize, hconnect, hcarries, hresolves, hne, hback, rfl⟩
    · rintro ⟨query, rest, response, rfl, hquery, hsize, hconnect, hcarries, hresolves, hne,
        hback, rfl⟩
      obtain ⟨blob, hblob⟩ := hP.encryptQuery_ok query publicKey coins nonce
      have hlength := hP.length_encryptQuery hblob
      have hpayload : IsPayload query := by
        refine ⟨List.length_pos_iff.mpr hquery, Nat.le_trans hsize ?_⟩
        exact Nat.sub_le _ _
      have hfit : blob.length ≤ maxPayload := by
        rw [hlength]
        exact Nat.add_le_of_le_sub hover hsize
      rw [← hlength] at hcarries
      exact ⟨query, rest, blob, query, response, readFramed_ok_iff.mpr ⟨hpayload, rfl⟩, hblob,
        hfit, hconnect, hcarries, hP.decrypt_encrypt hkeys hblob, hresolves, hne, hback, rfl⟩
  · intro hrefuses written h
    obtain ⟨query, rest, blob, decrypted, response, hread, hblob, _, _, _, hdecrypt, _⟩ :=
      (proxyConnection_ok_iff hP).mp h
    obtain ⟨_, hclient⟩ := readFramed_ok_iff.mp hread
    rw [hP.decrypt_refused (hrefuses query rest hclient) hblob] at hdecrypt
    cases hdecrypt

end Answers

/-- Nothing is lost on the way, and one datagram arrives upstream. -/
def sampleRoute : Route where
  connect := .ok ()
  toResolver := ⟨none, earlyEof⟩
  toProxy := ⟨none, earlyEof⟩
  upstream := sampleUpstream
  net := deliver sampleUpstream strayResponse

theorem session_answered_iff_sample :
    proxyConnection samplePrimitives sampleParser (7 : UInt8) (7 : UInt8) sampleRoute (3 : UInt8)
        sampleNonce earlyEof (frame sampleQuery) = .ok (frame strayResponse) ∧
      ∀ written, proxyConnection samplePrimitives sampleParser (7 : UInt8) (8 : UInt8)
        sampleRoute (3 : UInt8) sampleNonce earlyEof (frame sampleQuery) ≠ .ok written := by
  constructor
  · apply ((session_answered_iff lawful_sample).1 ⟨(7 : UInt8), rfl⟩ _).mpr
    refine ⟨sampleQuery, [], strayResponse, rfl, by decide, by decide, rfl, nofun, ?_, by decide,
      nofun, rfl⟩
    exact ⟨⟨_, rfl⟩, rfl, rfl, _, _, rfl, rfl, rfl⟩
  · apply (session_answered_iff lawful_sample).2
    intro query rest _
    apply separates_sample
    rintro ⟨seed, hseed⟩
    cases hseed

end CivicConnect.Odns
