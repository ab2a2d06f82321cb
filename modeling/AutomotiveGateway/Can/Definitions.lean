import AutomotiveGateway.Foundation.StdString
import Mathlib.Data.Finmap

/-!
# Messages and signals of a DBC file

Definitions are generic in the type of `double`. Nothing is assumed about its
operations, so what is proved holds for whatever rounding they perform.
-/

namespace AutomotiveGateway.Can

/-- The floating-point operations of the decoder. -/
class DoubleOps (D : Type) where
  ofInt64 : Int64 → D
  mul : D → D → D
  add : D → D → D
  lt : D → D → Bool
  /-- The bits of a `double` after its conversion to `float`. -/
  toFloatBits : D → UInt32

/-- Integers in place of floating-point numbers. -/
abbrev intOps : DoubleOps Int where
  ofInt64 := Int64.toInt
  mul := (· * ·)
  add := (· + ·)
  lt a b := decide (a < b)
  toFloatBits a := UInt32.ofInt a

variable {D : Type}

/-- `std::min`, which keeps its first argument unless the second one is smaller. -/
def stdMin [DoubleOps D] (a b : D) : D := if DoubleOps.lt b a then b else a

/-- `std::max`, which keeps its first argument unless the second one is larger. -/
def stdMax [DoubleOps D] (a b : D) : D := if DoubleOps.lt a b then b else a

/-- One signal inside a CAN message. -/
structure SignalDef (D : Type) where
  name : StdString
  startBit : UInt8
  length : UInt8
  isSigned : Bool
  isLittleEndian : Bool
  scale : D
  offset : D
  minVal : D
  maxVal : D
  unit : StdString
deriving DecidableEq, Repr

/-- One CAN message with its signals. -/
structure MessageDef (D : Type) where
  canId : UInt32
  name : StdString
  length : UInt8
  signals : List (SignalDef D) := []
deriving DecidableEq, Repr

/-- The messages of a DBC file by their id. -/
structure DbcParser (D : Type) where
  messages : Finmap fun _ : UInt32 => MessageDef D := ∅

/-- Look up a message definition; `nullptr` is `none`. -/
def DbcParser.findMessage (dbc : DbcParser D) (canId : UInt32) : Option (MessageDef D) :=
  dbc.messages.lookup canId

end AutomotiveGateway.Can
