/-!
# Options

The options of the command line.

* `Options` — the options that were given.
* `Options.parse` — reads them from the arguments.
-/

set_option autoImplicit false

namespace BoundsCheck

/-- The options that were given. -/
structure Options where
  config : Option String := none
  traces : Option String := none
  maxCycles : Option Nat := none
  output : Option String := none
  verbosity : Nat := 0
deriving DecidableEq, Repr

namespace Options

/-- Why the arguments name no session to run. -/
inductive Stop
  /-- They ask for help. -/
  | help
  /-- They ask for the version. -/
  | version
  /-- They make no sense. -/
  | refused
deriving DecidableEq, Repr

/-- An option with a value. -/
inductive Name
  | config
  | traces
  | maxCycles
  | output
deriving DecidableEq, Repr

/-- The option with a long name. -/
def longName? : String → Option Name
  | "config" => some .config
  | "traces" => some .traces
  | "max-cycles" => some .maxCycles
  | "output" => some .output
  | _ => none

/-- The option with a short name. -/
def shortName? : Char → Option Name
  | 'c' => some .config
  | 't' => some .traces
  | 'o' => some .output
  | _ => none

/-- The number of 64 bits that a text is. -/
def number? (text : String) : Option Nat :=
  let digits := match text.toList with
    | '+' :: rest => rest
    | cs => cs
  if digits.isEmpty || !digits.all Char.isDigit then none
  else
    let n := digits.foldl (fun n c => 10 * n + (c.toNat - '0'.toNat)) 0
    if n < UInt64.size then some n else none

/-- Sets an option.  No option may be given twice. -/
def set (name : Name) (value : String) (o : Options) : Except Stop Options :=
  match name with
  | .config => if o.config.isSome then .error .refused else .ok { o with config := value }
  | .traces => if o.traces.isSome then .error .refused else .ok { o with traces := value }
  | .output => if o.output.isSome then .error .refused else .ok { o with output := value }
  | .maxCycles =>
    match o.maxCycles, number? value with
    | none, some n => .ok { o with maxCycles := n }
    | _, _ => .error .refused

/-- The argument looks like an option. -/
def looksLikeOption (arg : String) : Bool := arg.startsWith "-" && arg != "-"

/-- Sets an option from the argument behind it; returns what is left. -/
def setFromNext (name : Name) (args : List String) (o : Options) :
    Except Stop (Options × List String) :=
  match args with
  | [] => .error .refused
  | value :: rest =>
    if looksLikeOption value then .error .refused
    else do return (← o.set name value, rest)

/-- Reads an argument with two dashes. -/
def long (body : String) (args : List String) (o : Options) :
    Except Stop (Options × List String) :=
  match body.splitOn "=" with
  | [name] =>
    if name = "verbose" then .ok ({ o with verbosity := o.verbosity + 1 }, args)
    else if name = "help" then .error .help
    else if name = "version" then .error .version
    else
      match longName? name with
      | none => .error .refused
      | some name => o.setFromNext name args
  | name :: value =>
    match longName? name with
    | none => .error .refused
    | some name => do return (← o.set name ("=".intercalate value), args)
  | [] => .error .refused

/-- The value of an option that stands in the same argument. -/
def attached (cs : List Char) : String :=
  match cs with
  | '=' :: rest => String.ofList rest
  | cs => String.ofList cs

/-- Reads an argument with one dash. -/
def short (args : List String) : List Char → Options → Except Stop (Options × List String)
  | [], o => .ok (o, args)
  | 'v' :: cs, o => short args cs { o with verbosity := o.verbosity + 1 }
  | 'h' :: _, _ => .error .help
  | 'V' :: _, _ => .error .version
  | c :: cs, o =>
    match shortName? c with
    | none => .error .refused
    | some name =>
      if cs.isEmpty then o.setFromNext name args
      else do return (← o.set name (attached cs), args)

/-- Reads the next argument; returns what is left. -/
def next (arg : String) (args : List String) (o : Options) : Except Stop (Options × List String) :=
  match arg.toList with
  | '-' :: '-' :: [] => if args.isEmpty then .ok (o, []) else .error .refused
  | '-' :: '-' :: cs => o.long (String.ofList cs) args
  | '-' :: c :: cs => short args (c :: cs) o
  | _ => .error .refused

/-- Reads arguments; there are at most `fuel` of them. -/
def parseOnto (o : Options) : Nat → List String → Except Stop Options
  | _, [] => .ok o
  | 0, _ :: _ => .error .refused
  | fuel + 1, arg :: args =>
    match o.next arg args with
    | .error stop => .error stop
    | .ok (o, rest) => parseOnto o fuel rest

/-- The options that some arguments give. -/
def parse (args : List String) : Except Stop Options := parseOnto {} args.length args

/-- The first cycle that is not run. -/
def limit (o : Options) : Nat := o.maxCycles.getD 1000000

end Options

end BoundsCheck
