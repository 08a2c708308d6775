import ChangeDesk.Text.Decimal

/-!
# Parameters of a command

How the words behind a command are matched with its parameters. Options are known by their names
and may stand anywhere, with their value behind an equals sign or as the next word; the other
words are values of the positions, in their order. Two hyphens alone end the options.

A value is only looked at once the words show that it is complete, so of two faults in a line the
one of the later word may be met first.
-/

namespace ChangeDesk

/-- Why words are no command. -/
inductive UsageFault where
  | helpAsked
  | versionAsked
  | noSubcommand
  | unknownSubcommand
  | unknownArgument
  | surplusValue
  | valueMissing
  | badValue
  | conflict
  | argumentMissing
deriving DecidableEq, Repr

/-- The wording of a fault. -/
def UsageFault.message : UsageFault → String
  | .helpAsked => "usage: revmeta show|assignee|topic|hashtag|profile ..."
  | .versionAsked => "revmeta"
  | .noSubcommand => "a command is missing"
  | .unknownSubcommand => "there is no such command"
  | .unknownArgument => "an argument was not expected"
  | .surplusValue => "a switch takes no value"
  | .valueMissing => "an option has no value"
  | .badValue => "a value is not a number in range"
  | .conflict => "an argument cannot be used with another one, or twice"
  | .argumentMissing => "a required argument is missing"

/-- How a parameter changes what is known: a switch takes no value. -/
inductive Taking (σ : Type) where
  | switch (set : σ → σ)
  | value (set : String → σ → Except UsageFault σ)

/-- A parameter of a command whose arguments are collected in `σ`. It may be given once. -/
structure Parameter (σ : Type) where
  name : String
  given : σ → Bool
  taking : Taking σ

namespace Parameter

variable {σ : Type}

/-- A parameter without a value. -/
def switch (name : String) (get : σ → Bool) (set : σ → σ) : Parameter σ :=
  ⟨name, get, .switch set⟩

/-- A parameter with any text as its value. -/
def text (name : String) (get : σ → Option String) (set : String → σ → σ) : Parameter σ :=
  ⟨name, fun s => (get s).isSome, .value fun v s => .ok (set v s)⟩

/-- A parameter with the name of a file as its value. -/
def path (name : String) (get : σ → Option String) (set : String → σ → σ) : Parameter σ :=
  ⟨name, fun s => (get s).isSome,
    .value fun v s => if v = "" then .error .valueMissing else .ok (set v s)⟩

/-- A parameter with a number of 64 bits as its value. -/
def number (name : String) (get : σ → Option UInt64) (set : UInt64 → σ → σ) : Parameter σ :=
  ⟨name, fun s => (get s).isSome, .value fun v s =>
    match Text.readNatural (UInt64.size - 1) v.toList with
    | .ok n => .ok (set (UInt64.ofNat n) s)
    | .error _ => .error .badValue⟩

/-- Takes a parameter that was given with a value, or with none. -/
def take (p : Parameter σ) (value : Option String) (s : σ) : Except UsageFault σ :=
  match p.taking, value with
  | .switch set, none => if p.given s then .error .conflict else .ok (set s)
  | .switch _, some _ => .error .surplusValue
  | .value _, none => .error .valueMissing
  | .value set, some v => if p.given s then .error .conflict else set v s

end Parameter

/-- The parameters of a command. -/
structure Parameters (σ : Type) where
  options : List (Parameter σ)
  positions : List (Parameter σ)

namespace Parameters

/-- Of two parameters that exclude each other only one may be given. -/
def exclusive (a b : Bool) : Except UsageFault Unit :=
  if a && b then .error .conflict else .ok ()

/-- The value of a parameter that must be given. -/
def required {α : Type} : Option α → Except UsageFault α
  | some a => .ok a
  | none => .error .argumentMissing

end Parameters

/-- What a word looks like where options may stand. -/
inductive Word where
  | dashes
  | option (name : String) (value : Option String)
  | letters (first : Char)
  | plain
deriving DecidableEq, Repr

/-- The look of a word. -/
def Word.ofText (s : String) : Word :=
  match s.toList with
  | ['-', '-'] => .dashes
  | '-' :: '-' :: cs =>
    let name := String.ofList (cs.takeWhile (· != '='))
    match cs.dropWhile (· != '=') with
    | [] => .option name none
    | _ :: value => .option name (some (String.ofList value))
  | '-' :: c :: _ => .letters c
  | _ => .plain

/-- How far the words have been matched: what is known, the parameter that was met last, whose
value may be still to come, and the positions without a value. -/
structure Matching (σ : Type) where
  known : σ
  held : Option (Parameter σ × Option String)
  free : List (Parameter σ)

namespace Matching

variable {σ : Type}

/-- Takes the parameter that was met last. -/
def settle (m : Matching σ) : Except UsageFault σ :=
  match m.held with
  | none => .ok m.known
  | some (p, value) => p.take value m.known

/-- Meets a parameter. A value behind an equals sign is complete; another one is not looked at
before the next parameter. -/
def meet (m : Matching σ) (p : Parameter σ) (value : Option String) :
    Except UsageFault (Matching σ) :=
  match p.taking, value with
  | .switch _, some _ => .error .surplusValue
  | .value _, none => do return { m with known := ← m.settle, held := some (p, none) }
  | _, _ => do return { m with known := ← p.take value (← m.settle), held := none }

/-- The fault of a line that asks for help, if nothing before it is wrong. -/
def askHelp (m : Matching σ) : Except UsageFault (Matching σ) := do
  let _ ← m.settle
  .error .helpAsked

/-- Meets an option. -/
def meetOption (ps : Parameters σ) (m : Matching σ) (name : String) (value : Option String) :
    Except UsageFault (Matching σ) :=
  match ps.options.find? (·.name == name) with
  | some p => m.meet p value
  | none =>
    if name ≠ "help" then .error .unknownArgument
    else if value.isSome then .error .surplusValue
    else m.askHelp

/-- Meets a value of the next position. -/
def meetPosition (m : Matching σ) (value : String) : Except UsageFault (Matching σ) :=
  match m.free with
  | [] => .error .unknownArgument
  | p :: free => do return ⟨← m.settle, some (p, some value), free⟩

/-- Meets a word that is no option: the value that an option waits for, or one of a position. -/
def meetPlain (m : Matching σ) (value : String) : Except UsageFault (Matching σ) :=
  match m.held with
  | some (p, none) => .ok { m with held := some (p, some value) }
  | _ => m.meetPosition value

/-- Meets the words of a line; the flag says that options may stand among them. -/
def meetAll (ps : Parameters σ) : Bool → Matching σ → List String → Except UsageFault σ
  | _, m, [] => m.settle
  | false, m, w :: ws => do meetAll ps false (← m.meetPosition w) ws
  | true, m, w :: ws =>
    match Word.ofText w with
    | .dashes => meetAll ps false m ws
    | .option name value => do meetAll ps true (← m.meetOption ps name value) ws
    | .letters c => do
      meetAll ps true (← if c = 'h' then m.askHelp else .error .unknownArgument) ws
    | .plain => do meetAll ps true (← m.meetPlain w) ws

end Matching

/-- What is known of a command from the words behind it. -/
def Parameters.read {σ : Type} (ps : Parameters σ) (start : σ) (words : List String) :
    Except UsageFault σ :=
  Matching.meetAll ps true ⟨start, none, ps.positions⟩ words

end ChangeDesk
