import AccountTx.Command.Setting

/-!
Reading a command line. A setting is given by its name after two hyphens, or its letter after one,
and its value in the same argument or the next; no value in the next begins with a hyphen, unless it
is one. Arguments after two hyphens alone are operands. The first fault counts, and so does the
question for the version if it comes before any fault. A value in an argument of its own is looked
at only when the next setting, operand or question at its place has come, the place before the
command and the place after it being two; so what is given last before the command is looked at
after all that follows the command.
-/

namespace AccountTx.Command

/-- Why no command is run. -/
inductive Stop where
  | usage
  /-- The version was asked for, of the program or of a command. -/
  | version (command : Option Name)
  deriving DecidableEq

abbrev Given := List (Setting × String)

/-- What an argument is by its look. -/
inductive Argument where
  | setting (s : Setting) (value : Option String)
  | version
  | separator
  | plain (text : String)
  | unknown

namespace Argument

def named? (settings : List Setting) (name : List Char) : Option Setting :=
  settings.find? fun s => s.text.toList == name

def lettered? (settings : List Setting) (letter : Char) : Option Setting :=
  settings.find? fun s => s.letter? == some letter

/-- An argument with a name; a value may follow after an equals sign. -/
def ofName (settings : List Setting) (body : List Char) : Argument :=
  let name := body.takeWhile (· ≠ '=')
  let value := match body.dropWhile (· ≠ '=') with
    | _ :: cs => some (String.ofList cs)
    | [] => none
  if name = "version".toList then
    match value with
    | none => .version
    | some _ => .unknown
  else
    match named? settings name with
    | some s => .setting s value
    | none => .unknown

/-- An argument with a letter; the value may follow at once or after an equals sign. -/
def ofLetter (settings : List Setting) (letter : Char) (rest : List Char) : Argument :=
  if letter = 'V' then .version
  else
    match lettered? settings letter, rest with
    | some s, [] => .setting s none
    | some s, '=' :: cs => .setting s (some (String.ofList cs))
    | some s, cs => .setting s (some (String.ofList cs))
    | none, _ => .unknown

def ofText (settings : List Setting) (text : String) : Argument :=
  match text.toList with
  | ['-', '-'] => .separator
  | '-' :: '-' :: body => ofName settings body
  | '-' :: letter :: rest => ofLetter settings letter rest
  | _ => .plain text

end Argument

/-- What has been given at one place, and the setting given there last, whose value is still to come
or to be looked at. -/
structure Place where
  settled : Given
  last : Option (Setting × Option String)

namespace Place

def empty : Place := ⟨[], none⟩

/-- Gives a setting its value, once. -/
def give (p : Place) (setting : Setting) (value : String) : Except Stop Place :=
  if (p.settled.lookup setting).isSome || !setting.accepts value then .error .usage
  else .ok ⟨(setting, value) :: p.settled, none⟩

/-- Looks at the value of the last setting, which has to be there. -/
def settle (p : Place) : Except Stop Place :=
  match p.last with
  | none => .ok p
  | some (_, none) => .error .usage
  | some (setting, some value) => p.give setting value

end Place

/-- What has been read of a command line: the command, what was given before and after it, and the
operands. -/
structure Scan where
  command : Option Name
  before : Place
  after : Place
  onlyOperands : Bool
  operands : List String

namespace Scan

def start : Scan := ⟨none, .empty, .empty, false, []⟩

/-- The place where the scan stands. -/
def place (s : Scan) : Place :=
  match s.command with
  | none => s.before
  | some _ => s.after

def withPlace (s : Scan) (p : Place) : Scan :=
  match s.command with
  | none => { s with before := p }
  | some _ => { s with after := p }

/-- A word that is no setting: the command, or an operand of it. -/
def word (s : Scan) (text : String) : Except Stop Scan :=
  match s.command with
  | some name =>
      if s.operands.length < name.operands then do
        return { s with after := ← s.after.settle, operands := s.operands ++ [text] }
      else .error .usage
  | none =>
      match Name.ofText? text with
      | some name => if s.onlyOperands then .error .usage else .ok { s with command := some name }
      | none => .error .usage

def step (s : Scan) (text : String) : Except Stop Scan :=
  if s.onlyOperands then s.word text
  else
    match Argument.ofText (Setting.of s.command) text, s.place.last with
    | .plain value, some (setting, none) =>
        .ok (s.withPlace { s.place with last := some (setting, some value) })
    | .plain text, _ => s.word text
    | .separator, _ => .ok { s with onlyOperands := true }
    | .unknown, _ => .error .usage
    | .version, _ => do
        let _ ← s.place.settle
        .error (.version s.command)
    | .setting setting (some value), _ => do
        return s.withPlace (← (← s.place.settle).give setting value)
    | .setting setting none, _ => do
        return s.withPlace { ← s.place.settle with last := some (setting, none) }

/-- Reads all arguments; what was given before the command is settled last. -/
def ofArguments (arguments : List String) : Except Stop Scan := do
  let s ← arguments.foldlM step start
  let after ← s.after.settle
  let before ← s.before.settle
  return { s with before, after }

end Scan

/-- What was given, and for settings that were not, what the environment holds. -/
def withEnvironment (environment : String → Option String) (given : Given) :
    List Setting → Except Stop Given
  | [] => .ok given
  | s :: settings => do
      let given ← withEnvironment environment given settings
      if (given.lookup s).isSome then .ok given
      else
        match s.environmentName?.bind environment with
        | some value => if s.accepts value then .ok ((s, value) :: given) else .error .usage
        | none => .ok given

end AccountTx.Command
