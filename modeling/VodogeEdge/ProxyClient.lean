import VodogeEdge.Socks5

/-!
# One client of a proxy listener

What `handle_client` does with an accepted connection: the SOCKS5
negotiation, the connection out (through the upstream the listener was
started with, or straight to the target) and the reply, up to the point
where the relay takes over.

The negotiation reads pieces whose sizes the client decides and puts the
request together again for a second parser.
-/

namespace VodogeEdge.Proxy

open List

open Talk

/-! ## Configuration -/

structure InstanceSpec where
  id : String
  name : String
  modemImei : String
  protocol : String
  listenAddr : String
  listenPort : Nat
  authEnabled : Bool
  username : String
  password : String
  upstreamId : String
  enabled : Bool
deriving DecidableEq

structure UpstreamSpec where
  id : String
  name : String
  address : String
  protocol : String
  username : String
  password : String
  enabled : Bool
deriving DecidableEq

/-! ## Negotiation -/

/-- `read_exact` and `read_n`. -/
def readN (count : Nat) : Talk ProtocolError Bytes := readExact .truncated count

def readByte : Talk ProtocolError UInt8 := do
  let buffer ← readN 1
  pure (buffer.getD 0 0)

def writeClient (bytes : Bytes) : Talk ProtocolError Unit := writeAll .truncated bytes

def readPrefixed : Talk ProtocolError String := do
  let length ← readByte
  let bytes ← readN length.toNat
  ofExcept ((fromUtf8 bytes).elim (.error .badCredentials) .ok)

def greet (spec : InstanceSpec) : Talk ProtocolError Unit := do
  let header ← readN 2
  if header.getD 0 0 ≠ version then
    fail (.notSocks5 (header.getD 0 0))
  else
    let methods ← readN (header.getD 1 0).toNat
    let method ← ofExcept (selectAuthMethod methods spec.authEnabled)
    writeClient [version, method]
    if method = authUnacceptable then fail .noAcceptableAuth else pure ()

def authenticate (spec : InstanceSpec) : Talk ProtocolError Unit :=
  if spec.authEnabled then do
    let blockVersion ← readByte
    if blockVersion ≠ userPasswordVersion then
      fail .badCredentials
    else
      let username ← readPrefixed
      let password ← readPrefixed
      let ok := decide (username = spec.username ∧ password = spec.password)
      writeClient [userPasswordVersion, if ok then 0 else 1]
      if ok then pure () else fail .badCredentials
  else pure ()

/-- The request as `parse_request` expects it: the command, the reserved
byte, the address type and the address. -/
def readRequest : Talk ProtocolError Bytes := do
  let head ← readN 4
  if head.getD 0 0 ≠ version then
    fail (.notSocks5 (head.getD 0 0))
  else
    let body := [head.getD 1 0, head.getD 2 0, head.getD 3 0]
    if head.getD 3 0 = atypIpv4 then do
      let address ← readN (4 + 2)
      pure (body ++ address)
    else if head.getD 3 0 = atypIpv6 then do
      let address ← readN (16 + 2)
      pure (body ++ address)
    else if head.getD 3 0 = atypDomain then do
      let length ← readByte
      let host ← readN (length.toNat + 2)
      pure (body ++ length :: host)
    else fail (.unsupportedAddressType (head.getD 3 0))

def negotiate (spec : InstanceSpec) : Talk ProtocolError Target := do
  greet spec
  authenticate spec
  let body ← readRequest
  ofExcept (parseRequest body)

/-! ## What the pieces read -/

theorem reads_readN (count : Nat) :
    Reads (readN count) fun bytes read => bytes = read ∧ read.length = count :=
  reads_readExact _ _

theorem reads_readByte : Reads readByte fun bytes byte => bytes = [byte] := by
  refine (Reads.readThen fun buffer => reads_pure _).congr fun bytes byte => ⟨?_, ?_⟩
  · rintro ⟨buffer, _, hlength, rfl, rfl, rfl⟩
    obtain ⟨b, rfl⟩ := length_eq_one_iff.mp hlength
    rfl
  · rintro rfl
    exact ⟨[byte], [], rfl, rfl, rfl, rfl⟩

variable {bytes : Bytes} {spec : InstanceSpec} (upstream : UpstreamSpec)

theorem length_eq_toNat_iff {length : UInt8} :
    bytes.length = length.toNat ↔ UInt8.ofNat bytes.length = length ∧ bytes.length < 256 := by
  constructor
  · intro h
    rw [h, UInt8.ofNat_toNat]
    exact ⟨rfl, length.toNat_lt⟩
  · rintro ⟨rfl, h⟩
    rw [UInt8.toNat_ofNat', Nat.mod_eq_of_lt h]

theorem reads_readPrefixed : Reads readPrefixed fun bytes text =>
    bytes = UInt8.ofNat (utf8Bytes text).length :: utf8Bytes text ∧
      (utf8Bytes text).length < 256 := by
  refine (reads_readByte.bind fun length => Reads.readThen fun bytes =>
    reads_ofExcept _).congr fun bytes text => ⟨?_, ?_⟩
  · rintro ⟨_, length, _, rfl, ⟨read, _, hlength, rfl, rfl, hread⟩, rfl⟩
    cases htext : fromUtf8 read with
    | none =>
      rw [htext] at hread
      cases hread
    | some decoded =>
      rw [htext] at hread
      cases hread
      obtain rfl := fromUtf8_eq_some_iff.mp htext
      rw [append_nil, (length_eq_toNat_iff.mp hlength).1]
      exact ⟨rfl, (length_eq_toNat_iff.mp hlength).2⟩
  · rintro ⟨rfl, hlength⟩
    refine ⟨_, _, _, rfl, ⟨_, [], length_eq_toNat_iff.mpr ⟨rfl, hlength⟩,
      (append_nil _).symm, rfl, ?_⟩, rfl⟩
    rw [fromUtf8_utf8Bytes]
    rfl

def requiredMethod (spec : InstanceSpec) : UInt8 :=
  if spec.authEnabled then authUserPassword else authNone

def greeting (methods : Bytes) : Bytes :=
  version :: UInt8.ofNat methods.length :: methods

theorem selectAuthMethod_eq_ok_iff {methods : Bytes} {method : UInt8} :
    selectAuthMethod methods spec.authEnabled = .ok method ↔
      requiredMethod spec ∈ methods ∧ method = requiredMethod spec := by
  change (if requiredMethod spec ∈ methods then Except.ok (requiredMethod spec) else _) = _ ↔ _
  split
  next hmem => rw [Except.ok.injEq, eq_comm, and_iff_right hmem]
  next hmem => exact ⟨nofun, fun h => absurd h.1 hmem⟩

theorem requiredMethod_ne (spec : InstanceSpec) : requiredMethod spec ≠ authUnacceptable := by
  rw [requiredMethod]
  split <;> decide

theorem reads_greet (spec : InstanceSpec) : Reads (greet spec) fun bytes _ =>
    ∃ methods, bytes = greeting methods ∧ methods.length < 256 ∧
      requiredMethod spec ∈ methods := by
  refine (Reads.readThen fun header => Reads.unless <| Reads.readThen fun methods =>
    Reads.exceptThen fun method => Reads.writeThen (reads_pure ()).unless).congr
    fun bytes _ => ⟨?_, ?_⟩
  · rintro ⟨header, _, hheader, rfl, hversion, methods, _, hlength, rfl, method, hmethod, -, rfl, -⟩
    obtain ⟨first, count, rfl⟩ := length_eq_two.mp hheader
    obtain rfl : first = version := not_not.mp hversion
    obtain ⟨rfl, hfits⟩ := length_eq_toNat_iff.mp hlength
    rw [append_nil]
    exact ⟨methods, rfl, hfits, (selectAuthMethod_eq_ok_iff.mp hmethod).1⟩
  · rintro ⟨methods, rfl, hfits, hmem⟩
    exact ⟨[version, UInt8.ofNat methods.length], methods, rfl, rfl, not_not.mpr rfl,
      methods, [], length_eq_toNat_iff.mpr ⟨rfl, hfits⟩, (append_nil _).symm, _,
      selectAuthMethod_eq_ok_iff.mpr ⟨hmem, rfl⟩, requiredMethod_ne spec, rfl, rfl⟩

def credentials (spec : InstanceSpec) : Bytes :=
  if spec.authEnabled then userPasswordRequest spec.username spec.password else []

/-- The configured credentials fit the length bytes of the block. -/
def CredentialsFit (spec : InstanceSpec) : Prop :=
  spec.authEnabled →
    (utf8Bytes spec.username).length < 256 ∧ (utf8Bytes spec.password).length < 256

theorem reads_authenticate (spec : InstanceSpec) : Reads (authenticate spec) fun bytes _ =>
    bytes = credentials spec ∧ CredentialsFit spec := by
  rw [authenticate, credentials]
  split
  next hauth =>
    refine (reads_readByte.bind fun blockVersion => Reads.unless <|
      reads_readPrefixed.bind fun username => reads_readPrefixed.bind fun password =>
      Reads.writeThen (reads_pure ()).provided).congr fun bytes _ => ⟨?_, ?_⟩
    · rintro ⟨_, _, _, rfl, ⟨hversion, _, username, _, ⟨rfl, husername⟩, ⟨_, password, _,
        ⟨rfl, hpassword⟩, ⟨hok, rfl, -⟩, rfl⟩, rfl⟩, rfl⟩
      obtain rfl := not_not.mp hversion
      obtain ⟨rfl, rfl⟩ := of_decide_eq_true hok
      exact ⟨by simp [userPasswordRequest], fun _ => ⟨husername, hpassword⟩⟩
    · rintro ⟨rfl, hfits⟩
      exact ⟨_, userPasswordVersion, _, rfl, ⟨not_not.mpr rfl, _, _, _, ⟨rfl, (hfits hauth).1⟩,
        ⟨_, _, [], ⟨rfl, (hfits hauth).2⟩, ⟨decide_eq_true ⟨rfl, rfl⟩, rfl, rfl⟩,
        (append_nil _).symm⟩, rfl⟩, userPasswordRequest_eq _ _⟩
  next hauth =>
    exact (reads_pure _).congr fun bytes _ =>
      and_congr_right fun _ => iff_of_true rfl fun hauth' => absurd hauth' hauth

/-! ## The request -/

/-- A request of which every piece has the size its first bytes announce. -/
inductive WellSized : Bytes → Prop where
  | ipv4 (command reserved : UInt8) (address : Octets 4) (high low : UInt8) :
      WellSized (command :: reserved :: atypIpv4 :: (address.val ++ [high, low]))
  | ipv6 (command reserved : UInt8) (address : Octets 16) (high low : UInt8) :
      WellSized (command :: reserved :: atypIpv6 :: (address.val ++ [high, low]))
  | domain (command reserved length : UInt8) {host : Bytes}
      (h : host.length = length.toNat) (high low : UInt8) :
      WellSized (command :: reserved :: atypDomain :: length :: (host ++ [high, low]))

theorem exists_append_port {n : Nat} (h : bytes.length = n + 2) :
    ∃ address high low, address.length = n ∧ bytes = address ++ [high, low] := by
  have hdrop : (bytes.drop n).length = 2 := by rw [length_drop]; omega
  obtain ⟨high, low, hport⟩ := length_eq_two.mp hdrop
  exact ⟨bytes.take n, high, low, by rw [length_take]; omega, by rw [← hport, take_append_drop]⟩

/-- What follows the address type has the size it announces. -/
def Announced (addressType : UInt8) (rest : Bytes) : Prop :=
  addressType = atypIpv4 ∧ rest.length = 4 + 2 ∨ addressType = atypIpv6 ∧ rest.length = 16 + 2 ∨
    addressType = atypDomain ∧ ∃ length host, rest = length :: host ∧
      host.length = length.toNat + 2

theorem wellSized_iff {command reserved addressType : UInt8} {rest : Bytes} :
    WellSized (command :: reserved :: addressType :: rest) ↔ Announced addressType rest := by
  constructor
  · intro h
    cases h with
    | ipv4 _ _ address high low => exact .inl ⟨rfl, by rw [length_append, address.property]; rfl⟩
    | ipv6 _ _ address high low =>
      exact .inr (.inl ⟨rfl, by rw [length_append, address.property]; rfl⟩)
    | domain _ _ length h high low =>
      exact .inr (.inr ⟨rfl, length, _, rfl, by rw [length_append, h]; rfl⟩)
  · rintro (⟨rfl, hlength⟩ | ⟨rfl, hlength⟩ | ⟨rfl, length, host, rfl, hlength⟩)
    · obtain ⟨octets, high, low, hoctets, rfl⟩ := exists_append_port hlength
      exact .ipv4 _ _ ⟨octets, hoctets⟩ high low
    · obtain ⟨octets, high, low, hoctets, rfl⟩ := exists_append_port hlength
      exact .ipv6 _ _ ⟨octets, hoctets⟩ high low
    · obtain ⟨name, high, low, hname, rfl⟩ := exists_append_port hlength
      exact .domain _ _ length hname high low

theorem reads_address (head : Bytes) (n : Nat) :
    Reads (do let address ← readN n; pure (head ++ address)) fun rest body =>
      body = head ++ rest ∧ rest.length = n := by
  refine (Reads.readThen fun address => reads_pure _).congr fun rest body => ⟨?_, ?_⟩
  · rintro ⟨address, _, hlength, rfl, rfl, rfl⟩
    rw [append_nil]
    exact ⟨rfl, hlength⟩
  · rintro ⟨rfl, hlength⟩
    exact ⟨_, [], hlength, (append_nil _).symm, rfl, rfl⟩

theorem reads_readRequest : Reads readRequest fun bytes body =>
    bytes = version :: body ∧ WellSized body := by
  refine (Reads.readThen fun head => Reads.unless (?_ : Reads _ fun rest body =>
    body = [head.getD 1 0, head.getD 2 0, head.getD 3 0] ++ rest ∧
      Announced (head.getD 3 0) rest)).congr fun bytes body => ⟨?_, ?_⟩
  · generalize head.getD 3 0 = addressType
    split
    next htype =>
      refine (reads_address _ _).congr fun rest body => ?_
      simp [Announced, htype, atypIpv4, atypIpv6, atypDomain]
    split
    next htype =>
      refine (reads_address _ _).congr fun rest body => ?_
      simp [Announced, htype, atypIpv4, atypIpv6, atypDomain]
    split
    next htype =>
      refine (reads_readByte.bind fun length => Reads.readThen fun host =>
        reads_pure _).congr fun rest body => ?_
      simp only [Announced, htype, atypIpv4, atypIpv6, atypDomain]
      constructor
      · rintro ⟨_, length, _, rfl, ⟨host, _, hlength, rfl, rfl, rfl⟩, rfl⟩
        simp [hlength]
      · rintro ⟨rfl, h⟩
        obtain ⟨length, host, rfl, hlength⟩ := by simpa using h
        exact ⟨_, length, host, rfl, ⟨_, [], hlength, (append_nil _).symm, rfl, rfl⟩, rfl⟩
    next hipv4 hipv6 hdomain =>
      exact reads_fail _ fun rest body h => by simp [Announced, hipv4, hipv6, hdomain] at h
  · rintro ⟨head, rest, hlength, rfl, hversion, rfl, hsized⟩
    obtain ⟨a, b, c, d, rfl⟩ := length_eq_four.mp hlength
    obtain rfl : a = version := not_not.mp hversion
    exact ⟨rfl, wellSized_iff.mpr hsized⟩
  · rintro ⟨rfl, hsized⟩
    obtain ⟨command, reserved, addressType, rest, rfl⟩ : ∃ command reserved addressType rest,
        body = command :: reserved :: addressType :: rest := by
      cases hsized <;> exact ⟨_, _, _, _, rfl⟩
    exact ⟨[version, command, reserved, addressType], rest, rfl, rfl, not_not.mpr rfl, rfl,
      wellSized_iff.mp hsized⟩

/-- The parser gets past the sizes of a well-sized request, and what it
then returns is what the request says. -/
theorem parseRequest_of_wellSized {body : Bytes} (h : WellSized body) :
    parseRequest body ≠ .error .truncated ∧
      ∀ target, parseRequest body = .ok target →
        ∃ reserved, body = cmdConnect :: reserved :: addressBytes target ∧
          ∀ host port, target = .domain host port → (utf8Bytes host).length < 256 := by
  obtain ⟨command, rest, rfl⟩ : ∃ command rest, body = command :: rest := by
    cases h <;> exact ⟨_, _, rfl⟩
  by_cases hcommand : command = cmdConnect
  · subst hcommand
    cases h with
    | ipv4 _ reserved address high low =>
      rw [parseRequest_connect, readTarget_ipv4]
      refine ⟨by simp, fun target htarget => ⟨reserved, ?_, ?_⟩⟩
      · rw [← Except.ok.inj htarget, addressBytes, portBytes_portOf]
      · rintro host port rfl
        cases htarget
    | ipv6 _ reserved address high low =>
      rw [parseRequest_connect, readTarget_ipv6]
      refine ⟨by simp, fun target htarget => ⟨reserved, ?_, ?_⟩⟩
      · rw [← Except.ok.inj htarget, addressBytes, portBytes_portOf]
      · rintro host port rfl
        cases htarget
    | domain _ reserved length hhost high low =>
      rw [parseRequest_connect, readTarget_domain hhost]
      cases htext : fromUtf8 _ with
      | none => exact ⟨by simp, fun target htarget => by cases htarget⟩
      | some text =>
        obtain rfl := fromUtf8_eq_some_iff.mp htext
        refine ⟨by simp, fun target htarget => ⟨reserved, ?_, ?_⟩⟩
        · rw [← Except.ok.inj htarget, addressBytes, portBytes_portOf,
            (length_eq_toNat_iff.mp hhost).1]
        · rintro host port rfl
          cases htarget
          exact (length_eq_toNat_iff.mp hhost).2
  · rw [show parseRequest (command :: rest) = .error _ from if_pos (.inr hcommand)]
    exact ⟨by simp, fun target htarget => by cases htarget⟩

/-! ## A negotiation that succeeds -/

def connectBytes (reserved : UInt8) (target : Target) : Bytes :=
  [version, cmdConnect, reserved] ++ addressBytes target

/-- The messages of a negotiation: a greeting that offers the method required,
the credentials if they are, and a CONNECT request for the target. -/
structure Negotiated (spec : InstanceSpec) (target : Target) (bytes : Bytes) : Prop where
  fits : CredentialsFit spec
  hostFits : ∀ host port, target = .domain host port → (utf8Bytes host).length < 256
  messages : ∃ methods reserved, methods.length < 256 ∧ requiredMethod spec ∈ methods ∧
    bytes = greeting methods ++ credentials spec ++ connectBytes reserved target

/-- The request of a target whose host fits its length byte is well-sized
and read back. -/
theorem parseRequest_addressBytes {target : Target} (reserved : UInt8)
    (h : ∀ host port, target = .domain host port → (utf8Bytes host).length < 256) :
    WellSized (cmdConnect :: reserved :: addressBytes target) ∧
      parseRequest (cmdConnect :: reserved :: addressBytes target) = .ok target := by
  cases target with
  | ipv4 address port =>
    refine ⟨.ipv4 _ _ _ _ _, ?_⟩
    rw [addressBytes, portBytes, parseRequest_connect, readTarget_ipv4, portOf_portBytes]
  | ipv6 address port =>
    refine ⟨.ipv6 _ _ _ _ _, ?_⟩
    rw [addressBytes, portBytes, parseRequest_connect, readTarget_ipv6, portOf_portBytes]
  | domain host port =>
    have hlength := length_eq_toNat_iff.mpr ⟨rfl, h host port rfl⟩
    refine ⟨.domain _ _ _ hlength _ _, ?_⟩
    rw [addressBytes, portBytes, parseRequest_connect, readTarget_domain hlength,
      portOf_portBytes, fromUtf8_utf8Bytes]
    rfl

theorem negotiate_reads (spec : InstanceSpec) :
    Reads (negotiate spec) fun bytes target => Negotiated spec target bytes := by
  refine ((reads_greet spec).bind fun _ => (reads_authenticate spec).bind fun _ =>
    reads_readRequest.bind fun body => reads_ofExcept _).congr fun bytes target => ⟨?_, ?_⟩
  · rintro ⟨_, _, _, ⟨methods, rfl, hmethods, hrequired⟩, ⟨_, _, _, ⟨rfl, hfits⟩,
      ⟨_, body, _, ⟨rfl, hsized⟩, ⟨rfl, htarget⟩, rfl⟩, rfl⟩, rfl⟩
    obtain ⟨reserved, hbody, hhost⟩ := (parseRequest_of_wellSized hsized).2 target htarget
    refine ⟨hfits, hhost, methods, reserved, hmethods, hrequired, ?_⟩
    rw [hbody, connectBytes]
    simp
  · rintro ⟨hfits, hhost, methods, reserved, hmethods, hrequired, rfl⟩
    obtain ⟨hsized, hparse⟩ := parseRequest_addressBytes reserved hhost
    exact ⟨_, (), _, ⟨methods, rfl, hmethods, hrequired⟩, ⟨_, (), _, ⟨rfl, hfits⟩,
      ⟨_, _, [], ⟨rfl, hsized⟩, ⟨rfl, hparse⟩, (append_nil _).symm⟩, rfl⟩, append_assoc _ _ _⟩

/-! ## The connection out -/

inductive IoErrorKind where
  | connectionRefused
  | timedOut
  | notFound
  | permissionDenied
  | unexpectedEof
  | other

structure IoError where
  kind : IoErrorKind
  message : String

/-- A failed `read_exact` or `write_all` on the connection out. -/
def endOfStream : IoError := ⟨.unexpectedEof, "early eof"⟩
def brokenPipe : IoError := ⟨.other, "broken pipe"⟩

/-- The greeting to the upstream and its answer: the method it chose. -/
def offerMethods (upstream : UpstreamSpec) : Talk IoError UInt8 := do
  let wantsAuth := upstream.username ≠ ""
  writeAll brokenPipe [version, 1, if wantsAuth then authUserPassword else authNone]
  let chosen ← readExact endOfStream 2
  if chosen.getD 0 0 ≠ version ∨ chosen.getD 1 0 = authUnacceptable then
    fail ⟨.permissionDenied, "upstream refused every authentication method offered"⟩
  else pure (chosen.getD 1 0)

def presentCredentials (upstream : UpstreamSpec) (chosen : UInt8) : Talk IoError Unit :=
  if chosen = authUserPassword then do
    writeAll brokenPipe (userPasswordRequest upstream.username upstream.password)
    let status ← readExact endOfStream 2
    if status.getD 1 0 ≠ 0 then fail ⟨.permissionDenied, "upstream rejected the credentials"⟩
    else pure ()
  else pure ()

/-- Read the bound address of a reply, so that the payload comes next. -/
def drainBound (addressType : UInt8) : Talk IoError Unit :=
  if addressType = atypIpv4 then do
    let _ ← readExact endOfStream (4 + 2)
    pure ()
  else if addressType = atypIpv6 then do
    let _ ← readExact endOfStream (16 + 2)
    pure ()
  else if addressType = atypDomain then do
    let length ← readExact endOfStream 1
    let _ ← readExact endOfStream ((length.getD 0 0).toNat + 2)
    pure ()
  else pure ()

def readAnswer : Talk IoError Unit := do
  let answer ← readExact endOfStream 4
  if answer.getD 1 0 ≠ replySuccess then
    fail ⟨.connectionRefused,
      "upstream refused the connection (code " ++ toString (answer.getD 1 0).toNat ++ ")"⟩
  else drainBound (answer.getD 3 0)

def upstreamHandshake (upstream : UpstreamSpec) (target : Target) : Talk IoError Unit := do
  let chosen ← offerMethods upstream
  presentCredentials upstream chosen
  writeAll brokenPipe (connectRequest target)
  readAnswer

/-- What a connection is made to: the address of an upstream, or the
target itself. -/
inductive Destination where
  | upstream (address : String)
  | target (target : Target)
deriving DecidableEq

structure Dialled where
  destination : Destination
  interface : Option String
deriving DecidableEq

structure Network where
  connect : Dialled → Except IoError Socket

def connectVia (network : Network) (destination : Destination) (interface : Option String) :
    Except IoError Socket × List Dialled :=
  (network.connect ⟨destination, interface⟩, [⟨destination, interface⟩])

def connectOut (network : Network) (target : Target) (upstream : Option UpstreamSpec)
    (interface : Option String) : Talked IoError Socket × List Dialled :=
  match upstream with
  | some upstream =>
    match connectVia network (.upstream upstream.address) interface with
    | (.error error, dialled) => (.failed error, dialled)
    | (.ok stream, dialled) =>
      match (upstreamHandshake upstream target).run stream with
      | (.done _, stream) => (.done stream, dialled)
      | (.failed error, _) => (.failed error, dialled)
      | (.blocked, _) => (.blocked, dialled)
  | none =>
    match connectVia network (.target target) interface with
    | (.error error, dialled) => (.failed error, dialled)
    | (.ok stream, dialled) => (.done stream, dialled)

def failureCode : IoErrorKind → UInt8
  | .connectionRefused => replyConnectionRefused
  | .timedOut | .notFound => replyHostUnreachable
  | _ => replyGeneralFailure

inductive Served where
  /-- Waiting for the client. -/
  | negotiating
  | refused (error : ProtocolError)
  /-- Waiting for the upstream. -/
  | connecting (target : Target)
  | unreachable (target : Target) (error : IoError)
  /-- The client went away before the reply. -/
  | gone (target : Target)
  | relaying (target : Target) (server : Socket)

/-- `let _ = client.write_all(..)`. -/
def tryWrite (client : Socket) (bytes : Bytes) : Socket := ((writeClient bytes).run client).2

def handleClient (network : Network) (spec : InstanceSpec) (upstream : Option UpstreamSpec)
    (interface : Option String) (client : Socket) : Served × Socket × List Dialled :=
  match (negotiate spec).run client with
  | (.blocked, client) => (.negotiating, client, [])
  | (.failed error, client) => (.refused error, tryWrite client (reply error.replyCode), [])
  | (.done target, client) =>
    match connectOut network target upstream interface with
    | (.blocked, dialled) => (.connecting target, client, dialled)
    | (.failed error, dialled) =>
      (.unreachable target error, tryWrite client (reply (failureCode error.kind)), dialled)
    | (.done server, dialled) =>
      match (writeClient (reply replySuccess)).run client with
      | (.done _, client) => (.relaying target server, client, dialled)
      | (_, client) => (.gone target, client, dialled)

theorem negotiated_of_dialled {network : Network} {upstream : Option UpstreamSpec}
    {interface : Option String} {client : Socket}
    (h : (handleClient network spec upstream interface client).2.2 ≠ []) :
    ∃ target client', (negotiate spec).run client = (.done target, client') := by
  rw [handleClient] at h
  match hrun : (negotiate spec).run client with
  | (.blocked, client') =>
    rw [hrun] at h
    exact absurd rfl h
  | (.failed error, client') =>
    rw [hrun] at h
    exact absurd rfl h
  | (.done target, client') => exact ⟨target, client', rfl⟩

/-- For every client and every way its bytes are cut into segments:

- an instance that requires credentials lets a connection out be tried
  only behind a greeting that offers them, a block with exactly the
  configured ones and a CONNECT request;
- a negotiation that succeeds has read exactly its messages, and its
  target is the one of the request;
- the request it puts together is never too short for the parser;
- and only the bytes count, not the segments. -/
theorem socks5_gate (spec : InstanceSpec) :
    (∀ network upstream interface client, spec.authEnabled →
        (handleClient network spec upstream interface client).2.2 ≠ [] →
        ∃ methods reserved target rest, authUserPassword ∈ methods ∧ methods.length < 256 ∧
          CredentialsFit spec ∧
          client.stream = greeting methods ++ userPasswordRequest spec.username spec.password
            ++ connectBytes reserved target ++ rest) ∧
      (∀ client target client', (negotiate spec).run client = (.done target, client') →
        ∃ bytes, Negotiated spec target bytes ∧ client.stream = bytes ++ client'.stream) ∧
      (∀ client body client', readRequest.run client = (.done body, client') →
        parseRequest body ≠ .error .truncated) ∧
      ∀ client client' : Socket, client.Same client' →
        ((negotiate spec).run client).1 = ((negotiate spec).run client').1 ∧
          ((negotiate spec).run client).2.Same ((negotiate spec).run client').2 := by
  refine ⟨?_, fun client target client' h => (negotiate_reads spec).consumes h, ?_,
    fun client client' h => (negotiate_reads spec).blind h⟩
  · intro network upstream interface client hauth hdialled
    obtain ⟨target, client', hrun⟩ := negotiated_of_dialled hdialled
    obtain ⟨bytes, ⟨hfits, -, methods, reserved, hmethods, hrequired, rfl⟩, hstream⟩ :=
      (negotiate_reads spec).consumes hrun
    rw [requiredMethod, if_pos hauth] at hrequired
    rw [credentials, if_pos hauth] at hstream
    exact ⟨methods, reserved, target, client'.stream, hrequired, hmethods, hfits, hstream⟩
  · intro client body client' hrun
    obtain ⟨bytes, ⟨-, hsized⟩, -⟩ := reads_readRequest.consumes hrun
    exact (parseRequest_of_wellSized hsized).1

/-! ## The answer to a greeting -/

theorem written_handleClient (network : Network) (upstream : Option UpstreamSpec)
    (interface : Option String) (client : Socket) :
    ((negotiate spec).run client).2.written
      <+: (handleClient network spec upstream interface client).2.1.written := by
  have hgrows : ∀ s bytes, s.written <+: ((writeClient bytes).run s).2.written :=
    fun s bytes => (reads_writeAll _ _).grows s
  rw [handleClient]
  match (negotiate spec).run client with
  | (.blocked, _) => exact prefix_rfl
  | (.failed _, _) => exact hgrows _ _
  | (.done target, negotiated) =>
    dsimp only
    match connectOut network target upstream interface with
    | (.blocked, _) => exact prefix_rfl
    | (.failed _, _) => exact hgrows _ _
    | (.done _, _) =>
      have hreply := hgrows negotiated (reply replySuccess)
      dsimp only
      split <;> simpa [*] using hreply

/-- What a client is told about the methods it offered: the one the
instance requires, or that none is acceptable. -/
def MethodAnswered (spec : InstanceSpec) (methods written : Bytes) : Prop :=
  if requiredMethod spec ∈ methods then [version, requiredMethod spec] <+: written
  else written = [version, authUnacceptable]

section

variable {methods rest : Bytes} {client : Socket} (hfits : methods.length < 256)
  (hstream : client.stream = greeting methods ++ rest) (hwrites : client.writes = [])
include hfits hstream hwrites

theorem run_greet : ∃ t, t.written = client.written ∧ t.writes = [] ∧
    (greet spec).run client = if requiredMethod spec ∈ methods
      then (.done (), { t with written := t.written ++ [version, requiredMethod spec] })
      else (.failed .noAcceptableAuth, t) := by
  have hheader : client.stream = [version, UInt8.ofNat methods.length] ++ (methods ++ rest) :=
    hstream
  obtain ⟨s, hrun, hs, hswrites⟩ := (reads_readN 2).accepts ⟨rfl, rfl⟩ hheader hwrites
  obtain ⟨t, hrun', -, htwrites⟩ := (reads_readN (UInt8.ofNat methods.length).toNat).accepts
    ⟨rfl, length_eq_toNat_iff.mpr ⟨rfl, hfits⟩⟩ hs hswrites
  have hquiet := quiet_readExact ProtocolError.truncated 2 client
  have hquiet' := quiet_readExact ProtocolError.truncated (UInt8.ofNat methods.length).toNat s
  rw [readN] at hrun hrun'
  rw [hrun] at hquiet
  rw [hrun'] at hquiet'
  refine ⟨t, hquiet'.trans hquiet, htwrites,
    ((run_bind_of_done hrun _).trans (run_bind_of_done hrun' _)).trans ?_⟩
  split
  next hmem =>
    rw [selectAuthMethod_eq_ok_iff.mpr ⟨hmem, rfl⟩]
    simp [Talk.ofExcept, writeClient, writeAll, run_bind, htwrites, requiredMethod_ne]
  next hmem =>
    rw [show selectAuthMethod methods spec.authEnabled = .error .noAcceptableAuth from if_neg hmem]
    rfl

/-- On a connection that takes what is written, a greeting is answered as the
protocol says exactly if it offers the required method. -/
theorem method_answered_iff (network : Network) (spec : InstanceSpec)
    (upstream : Option UpstreamSpec) (interface : Option String) (hfresh : client.written = []) :
    MethodAnswered spec methods (handleClient network spec upstream interface client).2.1.written ↔
      requiredMethod spec ∈ methods := by
  obtain ⟨t, ht, htwrites, hgreet⟩ := @run_greet spec _ _ _ hfits hstream hwrites
  rw [hfresh] at ht
  by_cases hmem : requiredMethod spec ∈ methods
  · rw [if_pos hmem, ht, nil_append] at hgreet
    refine iff_of_true ?_ hmem
    rw [MethodAnswered, if_pos hmem]
    have hrest := ((reads_authenticate spec).bind fun _ => reads_readRequest.bind fun body =>
      reads_ofExcept (parseRequest body)).grows { t with written := [version, requiredMethod spec] }
    have hrun : (negotiate spec).run client = _ := run_bind_of_done hgreet _
    rw [← hrun] at hrest
    exact hrest.trans (written_handleClient network upstream interface client)
  · rw [if_neg hmem] at hgreet
    refine iff_of_false ?_ hmem
    have hrun : (negotiate spec).run client = (.failed .noAcceptableAuth, t) := by
      rw [negotiate, run_bind, hgreet]
    rw [MethodAnswered, if_neg hmem, handleClient, hrun]
    simp only [tryWrite, writeClient, writeAll, htwrites, ht]
    intro hreply
    exact absurd (congrArg List.length hreply) (by decide)

end

/-- A client that offers no method to an open instance reads `05 01`. -/
theorem unacceptable_not_told :
    ¬MethodAnswered ⟨"", "", "", "", "", 0, false, "", "", "", true⟩ []
      (handleClient ⟨fun _ => .error brokenPipe⟩ ⟨"", "", "", "", "", 0, false, "", "", "", true⟩
        none none ⟨[greeting []], false, [], []⟩).2.1.written := by
  rw [MethodAnswered]
  decide

theorem offered_method_told :
    MethodAnswered ⟨"", "", "", "", "", 0, false, "", "", "", true⟩ [authNone]
      (handleClient ⟨fun _ => .error brokenPipe⟩ ⟨"", "", "", "", "", 0, false, "", "", "", true⟩
        none none ⟨[greeting [authNone]], false, [], []⟩).2.1.written :=
  (method_answered_iff (by decide) (append_nil _).symm rfl _ _ _ _ rfl).mpr (by decide)

/-! ## The answers of an upstream -/

def knownTypes : Bytes := [atypIpv4, atypIpv6, atypDomain]

def offeredMethod (upstream : UpstreamSpec) : UInt8 :=
  if upstream.username ≠ "" then authUserPassword else authNone

/-- What an upstream sends before the payload. -/
structure Answer where
  method : UInt8
  status : Bytes
  replyVersion : UInt8
  reserved : UInt8
  addressType : UInt8
  bound : Bytes

namespace Answer

def message (a : Answer) : Bytes :=
  [version, a.method] ++ a.status
    ++ ([a.replyVersion, replySuccess, a.reserved, a.addressType] ++ a.bound)

/-- What the handshake lets pass: any method but the refusal, any version
of the reply, and an unknown address type without an address. -/
structure Taken (a : Answer) : Prop where
  method : a.method ≠ authUnacceptable
  status : if a.method = authUserPassword then ∃ v, a.status = [v, 0] else a.status = []
  bound : Announced a.addressType a.bound ∨ a.addressType ∉ knownTypes ∧ a.bound = []

structure Sound (upstream : UpstreamSpec) (a : Answer) : Prop where
  method : a.method = offeredMethod upstream
  replyVersion : a.replyVersion = version
  addressType : a.addressType ∈ knownTypes

end Answer

theorem reads_presentCredentials (chosen : UInt8) :
    Reads (presentCredentials upstream chosen) fun bytes _ =>
      if chosen = authUserPassword then ∃ v, bytes = [v, 0] else bytes = [] := by
  rw [presentCredentials]
  split
  · refine (Reads.writeThen <| Reads.readThen fun status => (reads_pure ()).unless).congr
      fun bytes _ => ⟨?_, ?_⟩
    · rintro ⟨status, _, hlength, rfl, hzero, rfl, -⟩
      obtain ⟨v, code, rfl⟩ := length_eq_two.mp hlength
      exact ⟨v, by simpa using hzero⟩
    · rintro ⟨v, rfl⟩
      exact ⟨[v, 0], [], rfl, rfl, not_not.mpr rfl, rfl, rfl⟩
  · exact (reads_pure ()).congr fun bytes _ => and_iff_left rfl

theorem reads_drainBound (addressType : UInt8) : Reads (drainBound addressType) fun bytes _ =>
    Announced addressType bytes ∨ addressType ∉ knownTypes ∧ bytes = [] := by
  rw [drainBound]
  split
  next h =>
    refine (Reads.readThen fun _ => reads_pure ()).congr fun bytes _ => ?_
    simp [Announced, knownTypes, h, atypIpv4, atypIpv6, atypDomain]
  split
  next h =>
    refine (Reads.readThen fun _ => reads_pure ()).congr fun bytes _ => ?_
    simp [Announced, knownTypes, h, atypIpv4, atypIpv6, atypDomain]
  split
  next h =>
    refine (Reads.readThen fun length => Reads.readThen fun _ => reads_pure ()).congr
      fun bytes _ => ?_
    simp only [Announced, knownTypes, h, atypIpv4, atypIpv6, atypDomain]
    constructor
    · rintro ⟨read, _, hread, rfl, host, _, hhost, rfl, rfl, -⟩
      obtain ⟨length, rfl⟩ := length_eq_one_iff.mp hread
      simpa using hhost
    · intro hbytes
      obtain ⟨length, host, rfl, hhost⟩ := by simpa using hbytes
      exact ⟨[length], host, rfl, rfl, host, [], hhost, (append_nil _).symm, rfl, trivial⟩
  next hipv4 hipv6 hdomain =>
    exact (reads_pure ()).congr fun bytes _ => by
      simp [Announced, knownTypes, hipv4, hipv6, hdomain]

theorem reads_upstreamHandshake (target : Target) :
    Reads (upstreamHandshake upstream target) fun bytes _ =>
      ∃ a : Answer, a.Taken ∧ bytes = a.message := by
  refine (Reads.bind (Reads.writeThen <| Reads.readThen fun chosen => (reads_pure _).unless)
    fun chosen => (reads_presentCredentials upstream chosen).bind fun _ => Reads.writeThen <|
      Reads.readThen fun answer => (reads_drainBound _).unless).congr fun bytes _ => ⟨?_, ?_⟩
  · rintro ⟨_, _, _, ⟨chosen, _, hchosen, rfl, htaken, rfl, rfl⟩, ⟨status, _, _, hstatus,
      ⟨answer, bound, hanswer, rfl, hcode, hbound⟩, rfl⟩, rfl⟩
    obtain ⟨first, method, rfl⟩ := length_eq_two.mp hchosen
    obtain ⟨a, b, c, d, rfl⟩ := length_eq_four.mp hanswer
    obtain ⟨rfl, hmethod⟩ : first = version ∧ method ≠ authUnacceptable := by simpa using htaken
    obtain rfl : b = replySuccess := not_not.mp hcode
    exact ⟨⟨method, status, a, c, d, bound⟩, ⟨hmethod, hstatus, hbound⟩, by simp [Answer.message]⟩
  · rintro ⟨a, ⟨hmethod, hstatus, hbound⟩, rfl⟩
    exact ⟨_, a.method, _, ⟨[version, a.method], [], rfl, rfl, by simpa using hmethod, rfl, rfl⟩,
      ⟨_, (), _, hstatus, ⟨[a.replyVersion, replySuccess, a.reserved, a.addressType], a.bound, rfl,
        rfl, not_not.mpr rfl, hbound⟩, rfl⟩, append_assoc _ _ _⟩

/-- However the stream is cut, a handshake that succeeds has read exactly the
answer of the upstream, which is sound exactly if none at the head of the
stream that the handshake lets pass is unsound. -/
theorem handshake_sound_iff (upstream : UpstreamSpec) (target : Target)
    (segments : List Bytes) (closed : Bool) (written : Bytes) :
    (∀ s', (upstreamHandshake upstream target).run ⟨segments, closed, [], written⟩
        = (.done (), s') →
      (∃ a : Answer, a.Taken ∧ segments.flatten = a.message ++ s'.stream) ∧
        ∀ a : Answer, a.Taken → segments.flatten = a.message ++ s'.stream → a.Sound upstream) ↔
      ∀ (a : Answer) rest, a.Taken → segments.flatten = a.message ++ rest → a.Sound upstream := by
  have hreads := reads_upstreamHandshake upstream target
  constructor
  · intro h a rest htaken hstream
    have hstream' : Socket.stream ⟨segments, closed, [], written⟩ = a.message ++ rest := hstream
    obtain ⟨s', hrun, rfl, -⟩ := hreads.accepts ⟨a, htaken, rfl⟩ hstream' rfl
    exact (h s' hrun).2 a htaken hstream
  · intro h s' hrun
    obtain ⟨_, ⟨a, htaken, rfl⟩, hstream⟩ := hreads.consumes hrun
    exact ⟨⟨a, htaken, hstream⟩, fun b hb => h b _ hb⟩

/-- An upstream without credentials chooses a method nobody offered, and
answers with version 4 and an address type nobody knows: its address goes
to the client. -/
theorem unsound_taken :
    ∃ s', (upstreamHandshake ⟨"", "", "", "", "", "", true⟩ (.domain "" 0)).run
        ⟨[[5, 1, 4, 0, 0, 9, 127, 0, 0, 1]], false, [], []⟩ = (.done (), s') ∧
      s'.stream = [127, 0, 0, 1] ∧
      ∃ a : Answer, a.Taken ∧ ¬a.Sound ⟨"", "", "", "", "", "", true⟩ ∧
        a.message = [5, 1, 4, 0, 0, 9] :=
  ⟨_, rfl, by decide, ⟨1, [], 4, 0, 9, []⟩, ⟨by decide, rfl, .inr ⟨by decide, rfl⟩⟩,
    fun h => absurd h.replyVersion (by decide), rfl⟩

end VodogeEdge.Proxy
