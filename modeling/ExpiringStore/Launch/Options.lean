import ExpiringStore.Store.Entry
import ExpiringStore.Text.Numeral

/-!
# The command line

A command line is a sequence of flags, each followed by its value; a value may look like a flag.
Flags are read from the left, the first fault is reported, and a later value for a flag replaces an
earlier one. Two flags take no value and end the reading. The admin's name and password may come
from the environment where no flag gives them.
-/

namespace ExpiringStore

/-- The flags that take a value. -/
inductive Flag where
  | host
  | port
  | user
  | password
  | defaultTtl
deriving DecidableEq, Repr

namespace Flag

/-- The full name of a flag. -/
def name : Flag → String
  | host => "--host"
  | port => "--port"
  | user => "--user"
  | password => "--password"
  | defaultTtl => "--default-ttl"

/-- The short name of a flag, if it has one. -/
def shortName? : Flag → Option String
  | host => some "-h"
  | port => some "-p"
  | user => some "-u"
  | password => none
  | defaultTtl => none

/-- The flag that an argument names. -/
def ofArgument? (argument : String) : Option Flag :=
  [host, port, user, password, defaultTtl].find? fun f =>
    f.name == argument || f.shortName? == some argument

end Flag

/-- How a server is to be run. -/
structure Options where
  /-- The address to listen at. -/
  host : String
  /-- The port to listen at. -/
  port : UInt16
  /-- The name of the admin. -/
  user : String
  /-- The password of the admin, if one was given. -/
  password : Option String
  /-- How long an entry lives that is written without a lifetime. -/
  defaultExpiry : Expiry
deriving DecidableEq

/-- What a command line asks for. -/
inductive Command where
  /-- Run a server. -/
  | serve (options : Options)
  /-- Say how the program is used. -/
  | help
  /-- Name the program's version. -/
  | version
deriving DecidableEq

/-- Why a command line is refused. -/
inductive UsageError where
  /-- A flag stands at the end, without its value. -/
  | missingValue (flag : Flag)
  /-- A port is not a 16-bit number. -/
  | invalidPort (value : String) (fault : Numeral.Fault)
  /-- A lifetime is not a 64-bit number. -/
  | invalidTtl (value : String) (fault : Numeral.Fault)
  /-- A lifetime is zero. -/
  | zeroTtl
  /-- An argument stands where a flag was wanted and is none. -/
  | unknownArgument (argument : String)
  /-- The admin's name is empty. -/
  | emptyUser
deriving DecidableEq, Repr

namespace UsageError

/-- The words for an error. -/
def message : UsageError → String
  | missingValue flag => flag.name ++ " requires a value"
  | invalidPort value _ => "invalid port number '" ++ value ++ "'"
  | invalidTtl value _ => "invalid default TTL '" ++ value ++ "'"
  | zeroTtl => "--default-ttl must be greater than zero"
  | unknownArgument argument => "unknown argument: " ++ argument
  | emptyUser => "admin username must not be empty"

/-- The words for what is behind an error, if anything is. -/
def cause? : UsageError → Option String
  | invalidPort _ fault => some fault.message
  | invalidTtl _ fault => some fault.message
  | _ => none

end UsageError

namespace Options

/-- The address to listen at unless another is given. -/
def defaultHost : String := "127.0.0.1"

/-- The port to listen at unless another is given. -/
def defaultPort : UInt16 := 5678

/-- The admin's name unless another is given. -/
def defaultUser : String := "admin"

/-- The variable that holds the admin's name. -/
def userVariable : String := "RQLDB_USER"

/-- The variable that holds the admin's password. -/
def passwordVariable : String := "RQLDB_PASSWORD"

/-- Where a server listens. -/
def address (o : Options) : String := o.host ++ ":" ++ toString o.port

/-- What flags have said so far. -/
structure Draft where
  host : String
  port : UInt16
  user : Option String
  password : Option String
  defaultExpiry : Expiry
deriving DecidableEq

/-- Nothing said yet. -/
def Draft.blank : Draft := ⟨defaultHost, defaultPort, none, none, .never⟩

/-- Takes in the value of a flag. -/
def Draft.put (d : Draft) (flag : Flag) (value : String) : Except UsageError Draft :=
  match flag with
  | .host => .ok { d with host := value }
  | .port =>
    match Numeral.read UInt16.size value with
    | .ok port => .ok { d with port := UInt16.ofNat port }
    | .error fault => .error (.invalidPort value fault)
  | .user => .ok { d with user := some value }
  | .password => .ok { d with password := some value }
  | .defaultTtl =>
    match Numeral.read UInt64.size value with
    | .ok 0 => .error .zeroTtl
    | .ok ms => .ok { d with defaultExpiry := .after (.ofMillis (UInt64.ofNat ms)) }
    | .error fault => .error (.invalidTtl value fault)

/-- Fills in from the environment what no flag has said. -/
def Draft.complete (d : Draft) (environment : String → Option String) :
    Except UsageError Options :=
  let user := (d.user.orElse fun _ => environment userVariable).getD defaultUser
  let password := d.password.orElse fun _ => environment passwordVariable
  if user.isEmpty then .error .emptyUser
  else .ok ⟨d.host, d.port, user, password, d.defaultExpiry⟩

end Options

namespace Command

/-- Reads arguments after what earlier ones have said. -/
def readAfter (environment : String → Option String) (d : Options.Draft) :
    List String → Except UsageError Command
  | [] => (d.complete environment).map .serve
  | [argument] =>
    match Flag.ofArgument? argument with
    | some flag => .error (.missingValue flag)
    | none => bare argument
  | argument :: value :: rest =>
    match Flag.ofArgument? argument with
    | some flag => do readAfter environment (← d.put flag value) rest
    | none => bare argument
where
  /-- What an argument asks for that is no flag with a value. -/
  bare (argument : String) : Except UsageError Command :=
    if argument = "--help" then .ok .help
    else if argument = "--version" ∨ argument = "-v" then .ok .version
    else .error (.unknownArgument argument)

/-- Reads a command line. -/
def read (arguments : List String) (environment : String → Option String) :
    Except UsageError Command :=
  readAfter environment .blank arguments

end Command

end ExpiringStore
