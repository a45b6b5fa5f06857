import SplitHorizon.Network
/-!
# Client selectors

A top-level key of the answers document says which clients its zone is for: `default`, a single
address, or a network. Clients are compared in their canonical form, so a client that arrives under
`::ffff:10.0.0.1` is the client 10.0.0.1.
-/

namespace SplitHorizon

/-- Which clients a zone is for. -/
inductive Selector
  | default
  | network (net : Network)
  deriving DecidableEq, Repr

namespace Selector

/-- Why a text is no selector. -/
inductive Fault
  /-- It is neither an address nor `default`, and has no slash that would make it a network. -/
  | unrecognized
  /-- It has a slash and is no network. -/
  | badNetwork (text : String)
  deriving DecidableEq, Repr

def Fault.message : Fault → String
  | .unrecognized => "expected an IP address, a CIDR network or 'default'"
  | .badNetwork text => "invalid address: " ++ text

/-- Reads a selector; blanks around it do not count. -/
def read (cs : List Char) : Except Fault Selector :=
  let cs := Text.trim cs
  if Text.sameLetters cs "default".toList then .ok .default
  else
    match Address.read cs with
    | some a => .ok (.network (.single a))
    | none =>
      if cs.contains '/' then
        match Network.read cs with
        | some net => .ok (.network net)
        | none => .error (.badNetwork (String.ofList cs))
      else .error .unrecognized

def ofText (s : String) : Except Fault Selector := read s.toList

def render : Selector → List Char
  | default => "default".toList
  | network net => net.render

def contains : Selector → Address → Bool
  | default, _ => true
  | network net, client => net.contains client.canonical

/-- How narrow a selector is: the prefix length of its network. -/
def specificity : Selector → Option Nat
  | default => none
  | network net => some net.length

end Selector

end SplitHorizon
