/-
  CommitteeSync.Config.Level — log verbosity.

  A level is written as its number, 0 for none to 5 for all, or as its name in any mix of
  ASCII cases; the empty text means errors only.
-/

import CommitteeSync.Text.Integer

namespace CommitteeSync

inductive Level where
  | off
  | error
  | warn
  | info
  | debug
  | trace
  deriving DecidableEq, Repr

namespace Level

def all : List Level := [.off, .error, .warn, .info, .debug, .trace]

def name : Level → String
  | .off => "off"
  | .error => "error"
  | .warn => "warn"
  | .info => "info"
  | .debug => "debug"
  | .trace => "trace"

def ofNumber? (n : Nat) : Option Level := all[n]?

/-- The lower case of the ASCII letters; other characters are unchanged. -/
def foldCase (c : Char) : Char := if 0x41 ≤ c.toNat && c.toNat ≤ 0x5A then Char.ofNat (c.toNat + 0x20) else c

def ofName? (cs : List Char) : Option Level := all.find? fun l => l.name.toList == cs.map foldCase

/-- A number is tried first, then the empty text, then the names. -/
def read? (cs : List Char) : Option Level :=
  match Text.readUnsigned cs with
  | .ok n => (ofNumber? n).or (ofName? cs)
  | .error _ => if cs.isEmpty then some .error else ofName? cs

end Level

end CommitteeSync
