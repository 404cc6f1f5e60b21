import VodogeEdge.Utf8
import VodogeEdge.Talk

/-!
# SOCKS5 messages

The parts of the protocol a forwarding proxy needs: the choice of an
authentication method, the credential block, the CONNECT request in both
directions and the reply.

A request is read by `parseRequest` and written by `connectRequest`. On a
request whose pieces have the sizes it announces the parser says which
target it is, or that a host is no text.
-/

namespace VodogeEdge.Proxy

/-! ## Constants -/

def version : UInt8 := 0x05
def authNone : UInt8 := 0x00
def authUserPassword : UInt8 := 0x02
def authUnacceptable : UInt8 := 0xff
def userPasswordVersion : UInt8 := 0x01

def cmdConnect : UInt8 := 0x01
def cmdUdpAssociate : UInt8 := 0x03

def atypIpv4 : UInt8 := 0x01
def atypDomain : UInt8 := 0x03
def atypIpv6 : UInt8 := 0x04

def replySuccess : UInt8 := 0x00
def replyGeneralFailure : UInt8 := 0x01
def replyNotAllowed : UInt8 := 0x02
def replyHostUnreachable : UInt8 := 0x04
def replyConnectionRefused : UInt8 := 0x05
def replyCommandNotSupported : UInt8 := 0x07
def replyAddressNotSupported : UInt8 := 0x08

/-! ## Data -/

/-- An address of fixed size. -/
abbrev Octets (n : Nat) : Type := { bytes : Bytes // bytes.length = n }

/-- Where a client asked to go. A domain stays a domain. -/
inductive Target where
  | ipv4 (address : Octets 4) (port : UInt16)
  | ipv6 (address : Octets 16) (port : UInt16)
  | domain (host : String) (port : UInt16)
deriving DecidableEq

/-- Why a request does not parse. -/
inductive ProtocolError where
  | notSocks5 (version : UInt8)
  | truncated
  | noAcceptableAuth
  | unsupportedAddressType (value : UInt8)
  | unsupportedCommand (value : UInt8)
  | badCredentials

/-- The reply code that describes the failure to the client. -/
def ProtocolError.replyCode : ProtocolError → UInt8
  | .unsupportedCommand _ => replyCommandNotSupported
  | .unsupportedAddressType _ => replyAddressNotSupported
  | .badCredentials => replyNotAllowed
  | _ => replyGeneralFailure

/-! ## Messages -/

/-- The required method, if it is offered. -/
def selectAuthMethod (offered : Bytes) (requirePassword : Bool) : Except ProtocolError UInt8 :=
  let wanted := if requirePassword then authUserPassword else authNone
  if wanted ∈ offered then .ok wanted else .error .noAcceptableAuth

/-- Big-endian. -/
def portOf (high low : UInt8) : UInt16 := UInt16.ofNat (256 * high.toNat + low.toNat)

def portBytes (port : UInt16) : Bytes :=
  [UInt8.ofNat (port.toNat / 256), UInt8.ofNat (port.toNat % 256)]

/-- The two bytes at the offset. -/
def readPort (body : Bytes) (offset : Nat) : Except ProtocolError UInt16 :=
  match body[offset]?, body[offset + 1]? with
  | some high, some low => .ok (portOf high low)
  | _, _ => .error .truncated

/-- An address of `n` bytes and its port. -/
def readAddress (n : Nat) (rest : Bytes) : Except ProtocolError (Octets n × UInt16) :=
  if h : (rest.take n).length = n then do
    let port ← readPort rest n
    .ok (⟨rest.take n, h⟩, port)
  else .error .truncated

/-- A length byte, a name that is UTF-8, and the port. -/
def readDomain (rest : Bytes) : Except ProtocolError Target :=
  match rest with
  | [] => .error .truncated
  | length :: more =>
    if more.length < length.toNat then .error .truncated
    else
      match fromUtf8 (more.take length.toNat) with
      | none => .error (.unsupportedAddressType atypDomain)
      | some host => do
        let port ← readPort rest (1 + length.toNat)
        .ok (.domain host port)

/-- What the address type announces. -/
def readTarget (addressType : UInt8) (rest : Bytes) : Except ProtocolError Target :=
  if addressType = atypIpv4 then
    (readAddress 4 rest).map fun (address, port) => .ipv4 address port
  else if addressType = atypIpv6 then
    (readAddress 16 rest).map fun (address, port) => .ipv6 address port
  else if addressType = atypDomain then readDomain rest
  else .error (.unsupportedAddressType addressType)

/-- `parse_request`: the command, a reserved byte and the target. -/
def parseRequest (body : Bytes) : Except ProtocolError Target :=
  match body with
  | [] => .error .truncated
  | command :: more =>
    if command = cmdUdpAssociate ∨ command ≠ cmdConnect then .error (.unsupportedCommand command)
    else
      match more with
      | _ :: addressType :: rest => readTarget addressType rest
      | _ => .error .truncated

/-- The target as a request has it. -/
def addressBytes : Target → Bytes
  | .ipv4 address port => atypIpv4 :: (address.val ++ portBytes port)
  | .ipv6 address port => atypIpv6 :: (address.val ++ portBytes port)
  | .domain host port =>
    atypDomain :: UInt8.ofNat (utf8Bytes host).length :: (utf8Bytes host ++ portBytes port)

/-- The CONNECT request to an upstream. -/
def connectRequest (target : Target) : Bytes :=
  [version, cmdConnect, 0x00] ++ addressBytes target

/-- A reply; the bound address is not given away. -/
def reply (code : UInt8) : Bytes := [version, code, 0x00, atypIpv4, 0, 0, 0, 0, 0, 0]

def userPasswordRequest (username password : String) : Bytes :=
  [userPasswordVersion, UInt8.ofNat (utf8Bytes username).length] ++ utf8Bytes username
    ++ [UInt8.ofNat (utf8Bytes password).length] ++ utf8Bytes password

theorem userPasswordRequest_eq (username password : String) :
    userPasswordRequest username password = [userPasswordVersion] ++
      ((UInt8.ofNat (utf8Bytes username).length :: utf8Bytes username) ++
        (UInt8.ofNat (utf8Bytes password).length :: utf8Bytes password)) := by
  simp [userPasswordRequest]

/-! ## Ports -/

@[simp] theorem portOf_portBytes (port : UInt16) :
    portOf (UInt8.ofNat (port.toNat / 256)) (UInt8.ofNat (port.toNat % 256)) = port := by
  have hport := port.toNat_lt
  apply UInt16.toNat_inj.mp
  rw [portOf, UInt16.toNat_ofNat', UInt8.toNat_ofNat', UInt8.toNat_ofNat']
  omega

@[simp] theorem portBytes_portOf (high low : UInt8) :
    portBytes (portOf high low) = [high, low] := by
  have hhigh := high.toNat_lt
  have hlow := low.toNat_lt
  have hport : (portOf high low).toNat = 256 * high.toNat + low.toNat := by
    rw [portOf, UInt16.toNat_ofNat']
    omega
  rw [portBytes, hport, show (256 * high.toNat + low.toNat) / 256 = high.toNat by omega,
    show (256 * high.toNat + low.toNat) % 256 = low.toNat by omega, UInt8.ofNat_toNat,
    UInt8.ofNat_toNat]

variable {n : Nat} {host : Bytes} {length : UInt8}

theorem readPort_append {address : Bytes} (h : address.length = n)
    (high low : UInt8) : readPort (address ++ [high, low]) n = .ok (portOf high low) := by
  subst h
  simp [readPort]

/-! ## Requests of the announced sizes -/

theorem readAddress_append (address : Octets n) (high low : UInt8) :
    readAddress n (address.val ++ [high, low]) = .ok (address, portOf high low) := by
  have htake : (address.val ++ [high, low]).take n = address.val :=
    List.take_left' address.property
  rw [readAddress, dif_pos (by rw [htake, address.property])]
  simp only [readPort_append address.property, htake]
  rfl

theorem readDomain_append (h : host.length = length.toNat) (high low : UInt8) :
    readDomain (length :: (host ++ [high, low])) =
      (fromUtf8 host).elim (.error (.unsupportedAddressType atypDomain))
        fun text => .ok (.domain text (portOf high low)) := by
  have hshort : ¬(host ++ [high, low]).length < length.toNat := by simp [h]
  have hlength : (length :: host).length = 1 + length.toNat := by
    rw [List.length_cons, h, Nat.add_comm]
  have hport : readPort (length :: (host ++ [high, low])) (1 + length.toNat)
      = .ok (portOf high low) := readPort_append hlength high low
  rw [readDomain, if_neg hshort, List.take_left' h, hport]
  cases fromUtf8 host with
  | none | some => rfl

theorem parseRequest_connect (reserved addressType : UInt8) (rest : Bytes) :
    parseRequest (cmdConnect :: reserved :: addressType :: rest) = readTarget addressType rest := by
  rw [parseRequest, if_neg (by decide)]

theorem readTarget_ipv4 (address : Octets 4) (high low : UInt8) :
    readTarget atypIpv4 (address.val ++ [high, low]) = .ok (.ipv4 address (portOf high low)) := by
  rw [readTarget, readAddress_append]
  rfl

theorem readTarget_ipv6 (address : Octets 16) (high low : UInt8) :
    readTarget atypIpv6 (address.val ++ [high, low]) = .ok (.ipv6 address (portOf high low)) := by
  rw [readTarget, readAddress_append]
  rfl

theorem readTarget_domain (h : host.length = length.toNat) (high low : UInt8) :
    readTarget atypDomain (length :: (host ++ [high, low])) =
      (fromUtf8 host).elim (.error (.unsupportedAddressType atypDomain))
        fun text => .ok (.domain text (portOf high low)) := by
  rw [readTarget, if_neg (by decide), if_neg (by decide), if_pos rfl, readDomain_append h]

end VodogeEdge.Proxy
