/-! # Properties of a session

Four settings are shared by all connections of a session. `Properties` holds their values,
`Setting` is a new value for one of them, and `Properties.changes` lists the settings that take
one state to another: one for each property that differs, in a fixed order.

The library itself has a version too, which a program can ask for (`Edition.packed`). -/

namespace DepotClient

/-- A length of time in seconds and billionths of a second. -/
structure Timeout where
  /-- The whole seconds. -/
  seconds : UInt64
  /-- The billionths of a second. -/
  nanoseconds : Fin 1000000000
deriving DecidableEq

/-- The timeout of no time at all, which is no timeout. -/
def Timeout.zero : Timeout := ⟨0, 0⟩

/-- The timeout of a number of seconds and of billionths of a second, whole seconds among the
latter included; nothing if it has too many seconds. -/
def Timeout.of? (seconds nanoseconds : Nat) : Option Timeout :=
  let total := seconds + nanoseconds / 1000000000
  if total < UInt64.size then
    some ⟨.ofNat total, ⟨nanoseconds % 1000000000, Nat.mod_lt _ (by decide)⟩⟩
  else none

/-- The settings that all connections of a session share. -/
structure Properties where
  /-- The name of the program, as the server is told. -/
  programName : String := ""
  /-- The version of the program, as the server is told. -/
  programVersion : String := ""
  /-- The character set of the conversation. -/
  characterSet : String := ""
  /-- The time that a command may take. -/
  commandTimeout : Timeout := .zero
deriving DecidableEq

/-- The value that one property is given. -/
inductive Setting
  /-- The name of the program. -/
  | programName (value : String)
  /-- The version of the program. -/
  | programVersion (value : String)
  /-- The character set. -/
  | characterSet (value : String)
  /-- The time that a command may take. -/
  | commandTimeout (value : Timeout)
deriving DecidableEq

namespace Properties

/-- The state in which no property is set. -/
def unset : Properties := {}

/-- The properties after a setting. -/
def set (p : Properties) : Setting → Properties
  | .programName v => { p with programName := v }
  | .programVersion v => { p with programVersion := v }
  | .characterSet v => { p with characterSet := v }
  | .commandTimeout v => { p with commandTimeout := v }

/-- The settings that take one state to another: one for each property that differs. -/
def changes (old new : Properties) : List Setting :=
  (if new.programName = old.programName then [] else [.programName new.programName])
    ++ (if new.programVersion = old.programVersion then []
      else [.programVersion new.programVersion])
    ++ (if new.characterSet = old.characterSet then [] else [.characterSet new.characterSet])
    ++ (if new.commandTimeout = old.commandTimeout then []
      else [.commandTimeout new.commandTimeout])

@[simp] theorem changes_self (p : Properties) : changes p p = [] := by simp [changes]

/-- Making the changes from one state to another gives the other. -/
theorem foldl_set_changes (old new : Properties) : (changes old new).foldl set old = new := by
  obtain ⟨a, b, c, d⟩ := old
  obtain ⟨a', b', c', d'⟩ := new
  simp only [changes]
  split <;> split <;> split <;> split <;> simp_all [set]

end Properties

/-! ## The edition of this library -/

/-- A version of the library. -/
structure Edition where
  /-- The major number. -/
  major : UInt16
  /-- The minor number. -/
  minor : UInt16
  /-- The patch number. -/
  patch : UInt16
deriving DecidableEq

namespace Edition

/-- The edition as one number: sixteen bits each for patch, minor and major number, from the lowest
bits up. -/
def packed (e : Edition) : Nat :=
  (e.major.toNat * 65536 + e.minor.toNat) * 65536 + e.patch.toNat

/-- The edition of this library. -/
def current : Edition := ⟨0, 0, 0⟩

end Edition

end DepotClient
