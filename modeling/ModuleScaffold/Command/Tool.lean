import ModuleScaffold.Text.Blank
import ModuleScaffold.Text.Octets

/-!
# Tools

The tools that scripts use: `cat` passes its input on, `tr` replaces or drops octets, `echo` and
`printf` write their arguments.
-/

namespace ModuleScaffold

namespace Command

/-- What a command did. -/
structure Result where
  /-- What it made. -/
  output : Octets := []
  /-- What went wrong. -/
  errors : Octets := []
  /-- Zero if it succeeded. -/
  status : Nat := 0
  /-- What it left of its input. -/
  input : Octets := []
  /-- Whether it ends the script. -/
  exits : Bool := false
  deriving DecidableEq, Repr

/-- The result of a command that fails with a message. -/
def Result.failed (message : String) (status : Nat) (input : Octets) : Result :=
  { errors := Octets.ofText (message ++ "\n"), status, input }

/-! ### Escapes -/

/-- The value of an octal digit. -/
def octalDigit (c : Char) : Option Nat :=
  if '0' ≤ c ∧ c ≤ '7' then some (c.toNat - '0'.toNat) else none

/-- The number of at most so many octal digits behind others, and what remains. -/
def octal : Nat → Nat → List Char → Nat × List Char
  | 0, high, cs => (high, cs)
  | _, high, [] => (high, [])
  | n + 1, high, c :: cs =>
    match octalDigit c with
    | some d => octal n (high * 8 + d) cs
    | none => (high, c :: cs)

/-- The octet that a letter behind a backslash stands for. -/
def shortOctet (c : Char) : Option UInt8 :=
  if c = 'a' then some 7
  else if c = 'b' then some 8
  else if c = 'f' then some 12
  else if c = 'n' then some 10
  else if c = 'r' then some 13
  else if c = 't' then some 9
  else if c = 'v' then some 11
  else if c = '\\' then some 92
  else none

/-- The octets of a character. -/
def charOctets (c : Char) : Octets :=
  Octets.ofText (String.ofList [c])

/-- The octets that the text behind a backslash stands for, and what remains; with `zero`, octal
digits need a zero in front of them. -/
def escape (zero : Bool) : List Char → Octets × List Char
  | [] => ([92], [])
  | c :: cs =>
    match shortOctet c with
    | some b => ([b], cs)
    | none =>
      if zero && c = '0' then
        let (n, rest) := octal 3 0 cs
        ([UInt8.ofNat n], rest)
      else if ! zero && (octalDigit c).isSome then
        let (n, rest) := octal 3 0 (c :: cs)
        ([UInt8.ofNat n], rest)
      else (92 :: charOctets c, cs)

/-! ### Writing arguments -/

/-- The octets of a text with escapes, read in at most `fuel` steps, and whether the text ends the
output. -/
def escapedText : Nat → List Char → Octets × Bool
  | 0, _ | _, [] => ([], false)
  | fuel + 1, c :: cs =>
    if c = '\\' then
      if cs.head? = some 'c' then ([], true)
      else
        let (bs, rest) := escape true cs
        let (more, stops) := escapedText fuel rest
        (bs ++ more, stops)
    else
      let (more, stops) := escapedText fuel cs
      (charOctets c ++ more, stops)

/-- Writes the arguments with spaces between them and, unless told otherwise, a line feed. -/
def echo (args : List String) (input : Octets) : Result :=
  let (newline, args) := match args with
    | "-n" :: rest => (false, rest)
    | _ => (true, args)
  let text := (" ".intercalate args).toList
  let (bs, stops) := escapedText (text.length + 1) text
  { output := bs ++ (if newline && ! stops then [10] else []), input }

/-- A format written once with arguments, in at most `fuel` steps: the octets and the arguments
that remain. -/
def formatOnce : Nat → List Char → List String → Octets × List String
  | 0, _, args | _, [], args => ([], args)
  | fuel + 1, c :: cs, args =>
    if c = '\\' then
      let (bs, rest) := escape false cs
      let (more, args) := formatOnce fuel rest args
      (bs ++ more, args)
    else if c = '%' then
      match cs with
      | '%' :: rest =>
        let (more, args) := formatOnce fuel rest args
        (37 :: more, args)
      | d :: rest =>
        let arg := args.headD ""
        let (more, left) := formatOnce fuel rest args.tail
        let shown : Octets :=
          if d = 'c' then Octets.ofText (String.ofList (arg.toList.take 1))
          else if d = 'b' then (escapedText (arg.toList.length + 1) arg.toList).1
          else if (d = 'd' || d = 'i') && arg.isEmpty then [48]
          else Octets.ofText arg
        (shown ++ more, left)
      | [] => ([37], args)
    else
      let (more, args) := formatOnce fuel cs args
      (charOctets c ++ more, args)

/-- A format written again as long as it takes arguments and some remain. -/
def formatAll : Nat → List Char → List String → Octets
  | 0, _, _ => []
  | fuel + 1, format, args =>
    let (bs, left) := formatOnce (format.length + 1) format args
    if left.isEmpty || left.length = args.length then bs else bs ++ formatAll fuel format left

/-- Writes a format with the values of its arguments. -/
def printf (args : List String) (input : Octets) : Result :=
  match args with
  | [] => .failed "printf: usage: printf format [arg ...]" 2 input
  | format :: rest => { output := formatAll (rest.length + 1) format.toList rest, input }

/-! ### Passing input on -/

/-- The message about an option that a tool does not know. -/
def unknownOption (tool option : String) : String :=
  tool ++ ": unrecognized option '" ++ option ++ "'\nTry '" ++ tool
    ++ " --help' for more information."

/-- The first long option among arguments. -/
def longOption? (args : List String) : Option String :=
  args.find? fun a => "--".toList.isPrefixOf a.toList && a != "--"

/-- Passes the input on. -/
def cat (args : List String) (input : Octets) : Result :=
  match longOption? args with
  | some option => .failed (unknownOption "cat" option) 1 input
  | none =>
    match args.find? (· != "-") with
    | some file => .failed ("cat: " ++ file ++ ": No such file or directory") 1 input
    | none => { output := input }

/-! ### Replacing octets -/

/-- The octets from one to another. -/
def octetRange (low high : UInt8) : Octets :=
  (List.range (high.toNat + 1 - low.toNat)).map fun i => UInt8.ofNat (low.toNat + i)

/-- The named classes of octets. -/
def octetClass : String → Octets
  | "lower" => octetRange 97 122
  | "upper" => octetRange 65 90
  | "digit" => octetRange 48 57
  | "alpha" => octetRange 65 90 ++ octetRange 97 122
  | "alnum" => octetRange 48 57 ++ octetRange 65 90 ++ octetRange 97 122
  | "space" => octetRange 9 13 ++ [32]
  | "blank" => [9, 32]
  | "punct" => octetRange 33 47 ++ octetRange 58 64 ++ octetRange 91 96 ++ octetRange 123 126
  | "cntrl" => octetRange 0 31 ++ [127]
  | "print" => octetRange 32 126
  | "graph" => octetRange 33 126
  | "xdigit" => octetRange 48 57 ++ octetRange 65 70 ++ octetRange 97 102
  | _ => []

/-- An element of a set: octets, and whether they may begin a range. -/
def setElement : List Char → Octets × List Char
  | [] => ([], [])
  | '\\' :: cs =>
    match cs with
    | [] => ([92], [])
    | c :: rest =>
      if (shortOctet c).isSome || (octalDigit c).isSome then escape false cs
      else (charOctets c, rest)
  | '[' :: ':' :: cs =>
    let (name, behind) := cs.span (· != ':')
    match behind with
    | ':' :: ']' :: rest => (octetClass (String.ofList name), rest)
    | _ => ([91], ':' :: cs)
  | c :: cs => (charOctets c, cs)

/-- The octets of a set, read in at most `fuel` steps. -/
def octetSet : Nat → List Char → Octets
  | 0, _ | _, [] => []
  | fuel + 1, cs =>
    let (bs, rest) := setElement cs
    match bs, rest with
    | [low], '-' :: c :: more =>
      let (ends, behind) := setElement (c :: more)
      match ends with
      | [high] => octetRange low high ++ octetSet fuel behind
      | _ => low :: octetSet fuel rest
    | _, _ => bs ++ octetSet fuel rest

/-- The octets of a set. -/
def setOf (text : String) : Octets :=
  octetSet (text.toList.length + 1) text.toList

/-- The octet in the place of another one: the last place in the first set counts, and the second
set is filled up with its last member. -/
def replacement (source target : Octets) (b : UInt8) : UInt8 :=
  match (source.zipIdx.filter (·.1 == b)).getLast?, target.getLast? with
  | some (_, i), some last => target.getD i last
  | _, _ => b

/-- Octets of a set that follow each other made one, after the octet `before`. -/
def squeeze (set : Octets) (before : Option UInt8) : Octets → Octets
  | [] => []
  | b :: bs =>
    if before = some b && set.contains b then squeeze set before bs
    else b :: squeeze set (some b) bs

/-- What `tr` is told to do. -/
structure Replacing where
  /-- Whether the first set is taken as what is not in it. -/
  complement : Bool := false
  /-- Whether the octets of the first set are dropped. -/
  drops : Bool := false
  /-- Whether repetitions are made one. -/
  squeezes : Bool := false
  /-- The sets. -/
  sets : List String := []

/-- The meaning of arguments, in order. -/
def Replacing.ofArgs (told : Replacing) : List String → Replacing
  | [] => told
  | arg :: args =>
    match arg.toList with
    | '-' :: c :: letters =>
      let all := c :: letters
      Replacing.ofArgs { told with
        complement := told.complement || all.contains 'c' || all.contains 'C'
        drops := told.drops || all.contains 'd'
        squeezes := told.squeezes || all.contains 's' } args
    | _ => Replacing.ofArgs { told with sets := told.sets ++ [arg] } args

/-- Replaces or drops octets of the input. -/
def tr (args : List String) (input : Octets) : Result :=
  match longOption? args with
  | some option => .failed (unknownOption "tr" option) 1 input
  | none =>
    let told := Replacing.ofArgs {} args
    match told.sets with
    | [] => .failed "tr: missing operand\nTry 'tr --help' for more information." 1 input
    | first :: others =>
      let named := setOf first
      let source :=
        if told.complement then (octetRange 0 255).filter (! named.contains ·) else named
      let target := (others.head?.map setOf).getD []
      let kept :=
        if told.drops then input.filter (! source.contains ·)
        else input.map (replacement source target)
      let squeezed := if others.isEmpty then source else target
      { output := if told.squeezes then squeeze squeezed none kept else kept }

end Command

end ModuleScaffold
