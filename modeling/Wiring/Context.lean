/-!
# Cancellation

A context is cancelled when its own flag or the flag of one of its ancestors is raised. Contexts
and tokens are values that name flags; which flags are raised is kept in a `Flags` register. Copies
of a context name the same flag, so they are always cancelled together, and a flag that is raised
stays raised.
-/

namespace Wiring

/-- The flags given out so far and those of them that are raised. -/
structure Flags where
  /-- The next flag to be given out. -/
  next : Nat
  /-- The raised flags. -/
  raised : List Nat
  deriving Repr, Inhabited

namespace Flags

/-- No flag has been given out. -/
def empty : Flags := ⟨0, []⟩

/-- Whether a flag is raised. -/
def isRaised (flags : Flags) (flag : Nat) : Bool := flags.raised.contains flag

/-- Raises a flag. -/
def raise (flags : Flags) (flag : Nat) : Flags := { flags with raised := flag :: flags.raised }

/-- Gives out a flag that is not raised. -/
def fresh (flags : Flags) : Nat × Flags := (flags.next, { flags with next := flags.next + 1 })

end Flags

/-- A cancellation context: its flag, and the context it was derived from. -/
inductive Context where
  | root (flag : Nat)
  | child (flag : Nat) (parent : Context)
  deriving DecidableEq, Repr, Inhabited

namespace Context

/-- The flag that cancelling a context raises. -/
def flag : Context → Nat
  | root flag | child flag _ => flag

/-- Whether a context was derived from another one. -/
def hasParent : Context → Bool
  | root _ => false
  | child _ _ => true

/-- A new context without a parent. -/
def new (flags : Flags) : Context × Flags :=
  let (flag, flags) := flags.fresh
  (root flag, flags)

/-- A new context that is cancelled together with `parent`. -/
def derive (parent : Context) (flags : Flags) : Context × Flags :=
  let (flag, flags) := flags.fresh
  (child flag parent, flags)

/-- Cancels a context. -/
def cancel (context : Context) (flags : Flags) : Flags := flags.raise context.flag

/-- Whether a context or one of its ancestors was cancelled. -/
def isCancelled (flags : Flags) : Context → Bool
  | root flag => flags.isRaised flag
  | child flag parent => flags.isRaised flag || parent.isCancelled flags

/-- The text of the failure that `check` reports. -/
def cancelledText : String := "context cancelled"

/-- Fails exactly when the context is cancelled. -/
def check (flags : Flags) (context : Context) : Except String Unit :=
  if context.isCancelled flags then .error cancelledText else .ok ()

/-- The text that shows a context. -/
def display (flags : Flags) (context : Context) : String :=
  "Context \x7b cancelled: " ++ toString (context.isCancelled flags) ++ ", has_parent: " ++
    toString context.hasParent ++ " \x7d"

end Context

/-- A cancellation token: a single flag. -/
structure Token where
  flag : Nat
  deriving DecidableEq, Repr, Inhabited

namespace Token

/-- A new token. -/
def new (flags : Flags) : Token × Flags :=
  let (flag, flags) := flags.fresh
  (⟨flag⟩, flags)

/-- Cancels a token. -/
def cancel (token : Token) (flags : Flags) : Flags := flags.raise token.flag

/-- Whether a token was cancelled. -/
def isCancelled (flags : Flags) (token : Token) : Bool := flags.isRaised token.flag

end Token

end Wiring
