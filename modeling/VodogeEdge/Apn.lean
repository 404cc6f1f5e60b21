import VodogeEdge.AgentCommand
import VodogeEdge.AtPort
import VodogeEdge.Logged

/-!
# Packet data contexts

`configure_apn`: one context of a module is read, rewritten whole with
`AT+QICSGP` and read again. The module is arbitrary: every answer is a function
of all that went over the port before, and the log of a call is what went over
it.
-/

namespace VodogeEdge.Apn

/-! ## Fields of an answer -/

/-- The loop of `split_fields`: commas inside quotes do not separate. -/
def splitFieldsFrom (quoted : Bool) (current : Chars) : Chars → List Chars
  | [] => [current]
  | c :: rest =>
    if c = '"' then splitFieldsFrom (!quoted) (current ++ [c]) rest
    else if c = ',' ∧ !quoted then current :: splitFieldsFrom quoted [] rest
    else splitFieldsFrom quoted (current ++ [c]) rest

/-- The fields of a row, commas in quotes kept. -/
def splitFields (rest : Chars) : List Chars := splitFieldsFrom false [] rest

def unquote (value : Chars) : Chars :=
  ((trimBy isWhitespace value).dropWhile (· = '"')).rdropWhile (· = '"')

/-- `parse::<u8>`: digits, after a plus sign at most. -/
def parseU8 (text : Chars) : Option UInt8 :=
  let digits := match text with
    | '+' :: rest => rest
    | _ => text
  if digits = [] ∨ ¬ digits.all Char.isDigit then none
  else
    let value := digits.foldl (fun n c => 10 * n + (c.toNat - 48)) 0
    if value ≤ 255 then some (UInt8.ofNat value) else none

/-- The authentication of a context. -/
inductive ApnAuth where
  | none
  | pap
  | chap
  | papOrChap
deriving DecidableEq

/-- As the module reports it. -/
def ApnAuth.fromCode (code : UInt8) : Option ApnAuth :=
  if code = 0 then some .none
  else if code = 1 then some .pap
  else if code = 2 then some .chap
  else if code = 3 then some .papOrChap
  else Option.none

/-- As a request names it. -/
def ApnAuth.fromWire (value : Chars) : Option ApnAuth :=
  if value = "none".toList then some .none
  else if value = "pap".toList then some .pap
  else if value = "chap".toList then some .chap
  else if value = "pap_or_chap".toList then some .papOrChap
  else Option.none

/-- As the module is told. -/
def ApnAuth.code : ApnAuth → UInt8
  | .none => 0
  | .pap => 1
  | .chap => 2
  | .papOrChap => 3

/-- A context as it is read. -/
structure ApnCredentials where
  apn : Chars
  username : Chars
  hasPassword : Bool
  auth : Option ApnAuth
  contextType : Option UInt8
  password : Chars
deriving DecidableEq

/-- `str::strip_prefix`. -/
def strip (start text : Chars) : Option Chars :=
  if start.isPrefixOf text then some (text.drop start.length) else none

/-- The fields behind the context number. -/
def credentialsOf (fields : List Chars) : ApnCredentials :=
  let text (i : Nat) := (fields[i]?.map unquote).getD []
  let number (i : Nat) := fields[i]?.bind fun value => parseU8 (trimBy isWhitespace value)
  { apn := text 1
    username := text 2
    hasPassword := text 3 ≠ []
    auth := (number 4).bind ApnAuth.fromCode
    contextType := number 0
    password := text 3 }

/-- What a row starts with. -/
def rowStart : Chars := "+QICSGP:".toList

/-- `parse_qicsgp`: the first row counts. -/
def parseQicsgp : List Chars → Option ApnCredentials
  | [] => none
  | line :: lines =>
    match strip rowStart (trimBy isWhitespace line) with
    | none => parseQicsgp lines
    | some rest => some (credentialsOf (splitFields rest))

/-! ## What a context says -/

/-- The five fields of a context, as a module holds them and as a write states
them. -/
structure PdpContext where
  contextType : UInt8
  apn : Chars
  username : Chars
  password : Chars
  auth : UInt8

/-- `{n}`. -/
def decimal (n : UInt8) : Chars := Nat.toDigits 10 n.toNat

def quote (value : Chars) : Chars := '"' :: (value ++ ['"'])

/-- The fields of the write command. -/
def PdpContext.fields (context : PdpContext) : List Chars :=
  [decimal context.contextType, quote context.apn, quote context.username, quote context.password,
    decimal context.auth]

/-- `AT+QICSGP=<cid>`. -/
def readCommand (cid : UInt8) : Chars := "AT+QICSGP=".toList ++ decimal cid

def writeCommand (cid : UInt8) (context : PdpContext) : Chars :=
  readCommand cid ++ ',' :: [','].intercalate context.fields

/-! ## The request -/

/-- A request; what it leaves out is to be kept. -/
structure ApnWrite where
  cid : UInt8
  pdpType : Option Chars
  apn : Chars
  username : Option Chars
  password : Option Chars
  auth : Option Chars

/-- What the module shows after a write. -/
structure ApnReport where
  cid : UInt8
  pdpType : String
  apn : Chars
  username : Chars
  auth : Option ApnAuth
  hasPassword : Bool
deriving DecidableEq

/-- An error and the report that goes with it. -/
abbrev ApnError := SendError ApnReport

def ApnError.display (error : ApnError) : String := error.reasonCode ++ ": " ++ error.message

/-- What would end the quoted value or the command. -/
def isUnquotable (c : Char) : Bool := c = '"' || c = '\r' || c = '\n'

def checkQuotable (name : String) (value : Option Chars) : Except ApnError Unit :=
  match value with
  | none => .ok ()
  | some value =>
    if value.any isUnquotable then
      .error (.new "apn_value_unquotable"
        (name ++ " contains a character AT cannot carry inside a quoted field"))
    else .ok ()

/-- The common part of `str`'s `Debug`. -/
def debugText (value : Chars) : String :=
  let escaped (c : Char) : Chars :=
    if c = '"' ∨ c = '\\' then ['\\', c]
    else if c = '\n' then ['\\', 'n']
    else if c = '\r' then ['\\', 'r']
    else if c = '\t' then ['\\', 't']
    else [c]
  String.ofList (quote (value.flatMap escaped))

/-- The method a request names, if it is one. -/
def requestedAuth : Option Chars → Except ApnError (Option ApnAuth)
  | none => .ok none
  | some value =>
    match ApnAuth.fromWire value with
    | some auth => .ok (some auth)
    | none =>
      .error (.new "apn_auth_unknown" ("unknown authentication method " ++ debugText value))

/-- The PDP type a request names, if it is one. -/
def requestedType : Option Chars → Except ApnError (Option UInt8)
  | none => .ok none
  | some value =>
    if value = "IP".toList then .ok (some 1)
    else if value = "IPV6".toList then .ok (some 2)
    else if value = "IPV4V6".toList then .ok (some 3)
    else .error (.new "apn_pdp_type_unknown" ("unknown PDP type " ++ debugText value))

/-- What a request asks for, once it is understood. -/
structure Wanted where
  auth : Option ApnAuth
  contextType : Option UInt8

/-- The checks before the port is opened. -/
def understood (request : ApnWrite) : Except ApnError Wanted := do
  checkQuotable "apn" (some request.apn)
  checkQuotable "username" request.username
  checkQuotable "password" request.password
  let auth ← requestedAuth request.auth
  let contextType ← requestedType request.pdpType
  return ⟨auth, contextType⟩

/-! ## The call -/

/-- An error is what it displays as. -/
abbrev Answer := Except String AtExchange

structure Port where
  /-- Finding and opening the AT port of the module. -/
  opened : Except ApnError Unit
  answer : List (Chars × Answer) → Chars → Answer

/-- Work on the port, with every command and its answer. -/
abbrev Session := Logged (Chars × Answer) ApnError

def succeeded (exchange : AtExchange) : Bool := exchange.terminator = "OK".toList

/-- Sends one command. -/
def command (port : Port) (text : Chars) : Session Answer :=
  .ofAdded fun log => (.ok (port.answer log text), [(text, port.answer log text)])

/-- What a reading is worth. -/
def readingOf : Answer → Option ApnCredentials
  | .error _ => none
  | .ok exchange => if succeeded exchange then parseQicsgp exchange.lines else none

/-- Reads the context back. -/
def read (port : Port) (cid : UInt8) : Session (Option ApnCredentials) := do
  let answer ← command port (readCommand cid)
  return readingOf answer

/-- Every field of the write: as requested, else as it was read, else a
default. -/
def resolve (request : ApnWrite) (wanted : Wanted) (before : Option ApnCredentials) :
    PdpContext where
  contextType := (wanted.contextType.or (before.bind ApnCredentials.contextType)).getD 1
  apn := request.apn
  username := (request.username.or (before.map ApnCredentials.username)).getD []
  password := (request.password.or (before.map ApnCredentials.password)).getD []
  auth := ((wanted.auth.or (before.bind ApnCredentials.auth)).map ApnAuth.code).getD 0

/-- The name of a context type. -/
def pdpTypeName (contextType : UInt8) : String :=
  if contextType = 2 then "IPV6" else if contextType = 3 then "IPV4V6" else "IP"

/-- The module took the write. -/
def accepted : Answer → Except ApnError Unit
  | .error error => .error (.new "apn_write_failed" error)
  | .ok exchange =>
    if succeeded exchange then .ok ()
    else .error (.new "apn_write_refused"
      ("module answered " ++ String.ofList exchange.terminator))

/-- What was read back against what was sent. -/
def verify (request : ApnWrite) (context : PdpContext) :
    Option ApnCredentials → Except ApnError ApnReport
  | none =>
    .error (.new "apn_write_unverified"
      "the module accepted the write and would not read the context back")
  | some after =>
    if after.apn ≠ request.apn ∨ after.username ≠ context.username then
      .error (.new "apn_write_not_applied"
        "the module answered OK and the context did not change")
    else
      .ok ⟨request.cid, pdpTypeName context.contextType, after.apn, after.username, after.auth,
        after.hasPassword⟩

/-- Read, write, read again and compare. -/
def rewrite (port : Port) (request : ApnWrite) (wanted : Wanted) : Session ApnReport := do
  let before ← read port request.cid
  let context := resolve request wanted before
  let answer ← command port (writeCommand request.cid context)
  .ofExcept (accepted answer)
  let after ← read port request.cid
  .ofExcept (verify request context after)

/-- `configure_apn`: whatever goes wrong on the port has one reason code. -/
def configureApn (port : Port) (request : ApnWrite) : Session ApnReport := do
  let wanted ← .ofExcept (understood request)
  let outcome ← Logged.attempt do
    Logged.ofExcept port.opened
    rewrite port request wanted
  .ofExcept (outcome.mapError fun error => .new "apn_write_failed" error.display)

end VodogeEdge.Apn
