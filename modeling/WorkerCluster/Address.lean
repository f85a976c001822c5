import WorkerCluster.Json.Codec

/-!
# Addresses

A host and a port, written `host:port`. The host may hold colons itself: the last one counts.

* `Address.text` writes an address, `Address.parse` reads one.
* `AddressError` says why a text is none.
-/

namespace WorkerCluster

/-- Why a text is no address. -/
inductive AddressError
  /-- There is no colon. -/
  | missingPort (text : String)
  /-- What follows the last colon is no port. -/
  | invalidPort (text : String)
  /-- Nothing precedes the last colon. -/
  | emptyHost (text : String)
  deriving DecidableEq

/-- The message of an error. -/
def AddressError.message : AddressError → String
  | .missingPort t => "missing port in address: " ++ t
  | .invalidPort t => "invalid port in address: " ++ t
  | .emptyHost t => "empty host in address: " ++ t

/-- A host and a port to listen on or to connect to. -/
structure Address where
  host : String
  port : UInt16
  deriving DecidableEq, Inhabited

namespace Address

/-- Split at the last colon. -/
def splitLast : List Char → Option (List Char × List Char)
  | [] => none
  | c :: rest =>
    match splitLast rest with
    | some (host, port) => some (c :: host, port)
    | none => if c = ':' then some ([], rest) else none

/-- Read decimal digits, of which there must be one. -/
def digits? : List Char → Option Nat
  | [] => none
  | cs =>
    if cs.all Char.isDigit then some (cs.foldl (fun n c => 10 * n + (c.toNat - 48)) 0) else none

/-- Read a port: decimal digits below 65536, perhaps with zeros or a plus sign before them. -/
def port? (cs : List Char) : Option UInt16 :=
  let n := match cs with
    | '+' :: rest => digits? rest
    | _ => digits? cs
  match n with
  | some n => if n < UInt16.size then some n.toUInt16 else none
  | none => none

/-- Read an address. -/
def parse (text : String) : Except AddressError Address :=
  match splitLast text.toList with
  | none => .error (.missingPort text)
  | some ([], _) => .error (.emptyHost text)
  | some (host, port) =>
    match port? port with
    | some p => .ok ⟨String.ofList host, p⟩
    | none => .error (.invalidPort text)

/-- Write an address. -/
def text (a : Address) : String := a.host ++ ":" ++ toString a.port.toNat

instance : ToString Address := ⟨text⟩

/-- Addresses are written as texts. -/
def codec : Json.Codec Address :=
  Json.Codec.string.refine text fun s => (parse s).toOption

instance : Json.Coded Address := ⟨Address.codec⟩

end Address

end WorkerCluster
