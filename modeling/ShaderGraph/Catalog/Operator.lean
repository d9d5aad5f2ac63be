import ShaderGraph.Catalog.Builder

/-!
# The catalogue: arithmetic

Operations on the values of other nodes.
-/

namespace ShaderGraph.Catalog

/-- The code of an operation whose result has no declared type. -/
def resultTemplate (expression : String) : String :=
  angled ("auto ⟨OUTPUT⟩ = " ++ expression ++ ";")

/-- An operation on the inputs `A` and `B`, whose defaults are its identity if it has one. -/
def binaryNode (key : String) (op : BinaryOperation) (expression keywords : String)
    (hotkey : Option Char) : NodeDefinition :=
  let operand (id : String) : PinSpec :=
    { input id id .wildcard with default := op.identity?.map .float }
  { definition key key "Math" with
    pins := [operand "A", operand "B", output "Result" "" .wildcard]
    template := resultTemplate expression
    rule := .binary op
    keywords
    hotkey }

/-- A function of the input `Input`. -/
def unaryNode (key title category : String) (f : UnaryFunction) (expression keywords : String) :
    NodeDefinition :=
  { definition key title category with
    pins := [input "Input" "" .wildcard, output "Result" "" .wildcard]
    template := resultTemplate expression
    rule := .unary f
    keywords }

/-- Binary operations. -/
def binaryNodes : List NodeDefinition :=
  [binaryNode "Add" .add "⟨A⟩ + ⟨B⟩" "plus sum +" (some 'A'),
    binaryNode "Subtract" .subtract "⟨A⟩ - ⟨B⟩" "minus difference -" none,
    binaryNode "Multiply" .multiply "⟨A⟩ * ⟨B⟩" "times product tint *" (some 'M'),
    binaryNode "Divide" .divide "⟨A⟩ / ⟨B⟩" "quotient /" (some 'D'),
    binaryNode "Min" .min "min(⟨A⟩, ⟨B⟩)" "minimum smallest" none,
    binaryNode "Max" .max "max(⟨A⟩, ⟨B⟩)" "maximum largest" none,
    binaryNode "Power" .power "pow(⟨A⟩, ⟨B⟩)" "exponent pow" (some 'E')]

/-- Interpolation between two values. -/
def lerpNode : NodeDefinition :=
  { definition "Lerp" "Linear Interpolate" "Math" with
    pins :=
      [inputWith "A" "A" .wildcard (.float 0), inputWith "B" "B" .wildcard (.float 1),
        inputWith "Alpha" "Alpha" .float (.float 0.5), output "Result" "" .wildcard]
    template := resultTemplate "lerp(⟨A⟩, ⟨B⟩, ⟨Alpha⟩)"
    rule := .lerp
    keywords := "lerp mix blend interpolate"
    hotkey := some 'L' }

/-- A value kept within bounds. -/
def clampNode : NodeDefinition :=
  { definition "Clamp" "Clamp" "Math" with
    pins :=
      [input "Input" "" .wildcard, inputWith "Min" "Min" .wildcard (.float 0),
        inputWith "Max" "Max" .wildcard (.float 1), output "Result" "" .wildcard]
    template := resultTemplate "clamp(⟨Input⟩, ⟨Min⟩, ⟨Max⟩)"
    rule := .clamp
    keywords := "limit range" }

/-- Unary functions. -/
def unaryNodes : List NodeDefinition :=
  [{ unaryNode "OneMinus" "1-x" "Math" .oneMinus "1.0 - ⟨Input⟩" "one minus invert" with
      hotkey := some 'O' },
    unaryNode "Abs" "Abs" "Math" .abs "abs(⟨Input⟩)" "absolute",
    unaryNode "Floor" "Floor" "Math" .floor "floor(⟨Input⟩)" "round down",
    unaryNode "Ceil" "Ceil" "Math" .ceil "ceil(⟨Input⟩)" "round up ceiling",
    unaryNode "Frac" "Frac" "Math" .frac "frac(⟨Input⟩)" "fraction fractional",
    unaryNode "Saturate" "Saturate" "Math" .saturate "saturate(⟨Input⟩)" "clamp01",
    unaryNode "SquareRoot" "Square Root" "Math" .squareRoot "sqrt(⟨Input⟩)" "sqrt root",
    unaryNode "Sine" "Sine" "Math|Trigonometry" .sine "sin(⟨Input⟩)" "sin wave",
    unaryNode "Cosine" "Cosine" "Math|Trigonometry" .cosine "cos(⟨Input⟩)" "cos wave"]

end ShaderGraph.Catalog
