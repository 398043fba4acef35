/-
The machine of `Uri::Create` without the grammar of hosts.

The 560 states of the generated code fall into 31 phases, and the bytes
into twelve classes: the actions on a byte, and the phase after it, are
decided by the phase and the class. What is left out is which addresses
and percent codes are well formed, so a phase takes some bytes that its
states do not.

# Reading

`run` follows the phases and performs the actions. It keeps no positions:
instead of `mark` it has the bytes read since then, and `atoi` is given
these and what is still to be read.

A text that `Uri::Create` accepts is read by `run` with the same result:
`Proofs/Accepted.lean`.
-/
import TinyServer.Uri.Basic

namespace TinyServer

open Lib
open Http (Bytes ascii)

namespace Uri

-- ======================================================================= bytes

/-- The bytes as far as the phases tell them apart. -/
inductive ByteClass
  | hash
  | question
  | slash
  | colon
  | atSign
  | bracket
  | unbracket
  | digit
  | letter
  /-- `+`, `-` and `.`. -/
  | sign
  /-- The byte 2. uri.rl has `2 [0-4] digit` for the numbers from 200 to 249
  in an IPv4 address, where `2` is a byte and not a digit. -/
  | two
  | other
  deriving DecidableEq, Repr

def classRanges : List (Range ByteClass) :=
  [ ⟨0, 1, .other⟩, ⟨2, 2, .two⟩, ⟨3, 34, .other⟩, ⟨35, 35, .hash⟩,
    ⟨36, 42, .other⟩, ⟨43, 43, .sign⟩, ⟨44, 44, .other⟩, ⟨45, 46, .sign⟩,
    ⟨47, 47, .slash⟩, ⟨48, 57, .digit⟩, ⟨58, 58, .colon⟩, ⟨59, 62, .other⟩,
    ⟨63, 63, .question⟩, ⟨64, 64, .atSign⟩, ⟨65, 90, .letter⟩,
    ⟨91, 91, .bracket⟩, ⟨92, 92, .other⟩, ⟨93, 93, .unbracket⟩,
    ⟨94, 96, .other⟩, ⟨97, 122, .letter⟩, ⟨123, 255, .other⟩]

def classOf (b : UInt8) : ByteClass :=
  (rowLookup classRanges b.toNat).getD .other

-- ====================================================================== phases

/-- Where in a reference the machine is. `abs` tells whether a scheme came
before. -/
inductive Phase
  | start
  /-- Letters that may be a scheme or a first segment. -/
  | scheme
  /-- A first segment, of a reference without a scheme. -/
  | seg
  /-- Behind the `:` of the scheme. -/
  | colon
  /-- Behind a `/` that may be the first of two. -/
  | slash (abs : Bool)
  /-- A path that is not stored. -/
  | plain
  | auth (abs : Bool)
  /-- A host or user information. -/
  | name (abs : Bool)
  /-- Behind a `:` before a port or the rest of user information. -/
  | pcolon (abs : Bool)
  | digits (abs : Bool)
  /-- User information. -/
  | info (abs : Bool)
  /-- Behind the `@`. -/
  | atHost (abs : Bool)
  | host (abs : Bool)
  /-- Between brackets. -/
  | ip (abs : Bool)
  | port0 (abs : Bool)
  | port (abs : Bool)
  | path
  | query0
  | query
  | frag0
  | frag
  deriving DecidableEq, Repr

namespace Phase

/-- What is done where an authority ends; `none` where it cannot. -/
def closeAuthority : Phase → Option (List UriAction)
  | auth _ | atHost _ => some [.mark, .saveHost]
  | name abs | host abs =>
    some (if abs then [.saveHost, .mark] else [.saveHost])
  | pcolon _ | port0 _ => some [.mark, .savePort]
  | digits abs | port abs =>
      some (if abs then [.savePort, .mark] else [.savePort])
  | _ => none

/-- A scheme came before the authority. -/
def absolute : Phase → Bool
  | auth abs | name abs | pcolon abs | digits abs | info abs | atHost abs
  | host abs | ip abs | port0 abs | port abs => abs
  | _ => false

/-- What is done at a `?`, at a `#` or at the end of the text. -/
def close (ph : Phase) : Option (List UriAction) :=
  match ph with
  | info _ | ip _ => none
  | path => some [.savePath]
  | query0 => some [.mark, .saveQuery]
  | query => some [.saveQuery]
  | frag0 => some [.mark, .saveFragment]
  | frag => some [.saveFragment]
  | _ =>
      match ph.closeAuthority with
      | some acts => some (if ph.absolute then acts ++ [.savePath] else acts)
      | none => some []

def isQuery : Phase → Bool
  | query0 | query => true
  | _ => false

def isFragment : Phase → Bool
  | frag0 | frag => true
  | _ => false

/-- A byte inside a part: not `?` or `#`, and not the `/` behind an
authority. -/
def inner (ph : Phase) (c : ByteClass) : Option (List UriAction × Phase) :=
  match ph with
  | start =>
      match c with
      | .slash => some ([], slash false)
      | .colon => none
      | .letter => some ([.mark], scheme)
      | _ => some ([], seg)
  | scheme =>
      match c with
      | .colon => some ([.saveScheme], colon)
      | .slash => some ([], plain)
      | .letter | .digit | .sign => some ([], scheme)
      | _ => some ([], seg)
  | seg =>
      match c with
      | .colon => none
      | .slash => some ([], plain)
      | _ => some ([], seg)
  | colon => some ([], if c = .slash then slash true else plain)
  | slash abs => some ([], if c = .slash then auth abs else plain)
  | plain => some ([], plain)
  | auth abs =>
      match c with
      | .atSign => some ([.mark, .saveUserinfo], atHost abs)
      | .colon => some ([.mark, .saveHost], pcolon abs)
      | .bracket => some ([.mark], ip abs)
      | .two => some ([.mark], host abs)
      | _ => some ([.mark], name abs)
  | name abs =>
      match c with
      | .atSign => some ([.saveUserinfo], atHost abs)
      | .colon => some ([.saveHost], pcolon abs)
      | .two => some ([], host abs)
      | _ => some ([], name abs)
  | pcolon abs =>
      match c with
      | .atSign => some ([.saveUserinfo], atHost abs)
      | .digit => some ([.mark], digits abs)
      | _ => some ([], info abs)
  | digits abs =>
      match c with
      | .atSign => some ([.saveUserinfo], atHost abs)
      | .digit => some ([], digits abs)
      | _ => some ([], info abs)
  | info abs =>
      match c with
      | .atSign => some ([.saveUserinfo], atHost abs)
      | .slash => none
      | _ => some ([], info abs)
  | atHost abs =>
      match c with
      | .atSign => none
      | .colon => some ([.mark, .saveHost], port0 abs)
      | .bracket => some ([.mark], ip abs)
      | _ => some ([.mark], host abs)
  | host abs =>
      match c with
      | .atSign => none
      | .colon => some ([.saveHost], port0 abs)
      | _ => some ([], host abs)
  | ip abs =>
      match c with
      | .atSign | .slash => none
      | .unbracket => some ([], host abs)
      | _ => some ([], ip abs)
  | port0 abs => if c = .digit then some ([.mark], port abs) else none
  | port abs => if c = .digit then some ([], port abs) else none
  | path => some ([], path)
  | query0 => some ([.mark], query)
  | query => some ([], query)
  | frag0 => some ([.mark], frag)
  | frag => some ([], frag)

/-- A byte: the actions and the next phase. -/
def step (ph : Phase) (c : ByteClass) : Option (List UriAction × Phase) :=
  match c with
  | .hash => if ph.isFragment then none else ph.close.map (·, frag0)
  | .question =>
      if ph.isQuery || ph.isFragment then ph.inner c
      else ph.close.map (·, query0)
  | .slash =>
      match ph.closeAuthority with
      | some acts => some (acts, if ph.absolute then path else plain)
      | none => ph.inner c
  | _ => ph.inner c

end Phase

-- ===================================================================== reading

/-- The bytes since `mark`, and the object under construction. -/
structure Reading where
  since : Option Bytes
  uri : Uri
  deriving DecidableEq, Repr

/-- An action in front of `rest`; `none` when it throws. -/
def Reading.act (rest : Bytes) (x : Reading) (a : UriAction) : Option Reading :=
  match a with
  | .mark => some { x with since := some [] }
  | .saveScheme => x.since.map fun t => ⟨none, { x.uri with scheme := t }⟩
  | .savePort => x.since.map fun t =>
      ⟨none, if t = [] then x.uri
        else { x.uri with port := atoiPort (t ++ rest) }⟩
  | .saveUserinfo => some ⟨none, match x.since with
      | some t => { x.uri with userinfo := t }
      | none => x.uri⟩
  | .saveHost => some { x with uri := match x.since with
      | some t => { x.uri with host := t }
      | none => x.uri }
  | .savePath => x.since.map fun t => ⟨none, { x.uri with path := t }⟩
  | .saveQuery => x.since.map fun t => ⟨none, { x.uri with query := t }⟩
  | .saveFragment => x.since.map fun t => ⟨none, { x.uri with fragment := t }⟩

/-- A byte has been read. -/
def Reading.push (x : Reading) (b : UInt8) : Reading :=
  { x with since := x.since.map (· ++ [b]) }

/-- Follow the phases to the end of the text. -/
def run (ph : Phase) (x : Reading) : Bytes → Option Uri
  | [] => do
      let x ← (← ph.close).foldlM (Reading.act []) x
      pure x.uri
  | b :: bs => do
      let (acts, ph') ← ph.step (classOf b)
      let x ← acts.foldlM (Reading.act (b :: bs)) x
      run ph' (x.push b) bs

end Uri

end TinyServer
