import ShaderGraph.Graph.Basic

/-!
# Evaluation of one node

A rule says how a node's outputs follow from its properties and inputs. It asks for the inputs one
after the other through a reader, in whatever monad the reader works, and stops asking as soon as
the result is known to be absent.

## Main definitions

* `Evaluator` — the definitions, textures and placeholders under which nodes are evaluated
* `Evaluator.applyRule` — a rule applied to a node, given a reader of its inputs
* `Evaluator.evaluateNode` — the rule of the node's definition, applied
-/

namespace ShaderGraph

/-- The definitions, textures and placeholders under which nodes are evaluated. -/
structure Evaluator where
  registry : Registry
  /-- Where the image of a texture is found. -/
  textureUrl? : String → Option String
  settings : EvaluatorSettings

namespace Evaluator

/-- The value of an operand, if the input has one; a pending operand makes the result absent. -/
def operand {m : Type → Type} [Monad m] (read : String → m (Option Evaluated)) (pin : String) :
    OptionT m (Option Value) := do
  match ← OptionT.lift (read pin) with
  | some (.resolved v) => pure (some v)
  | some (.pending _) => failure
  | none => pure none

/-- A value that has to be there. -/
def required {m : Type → Type} [Monad m] (v : Option Value) : OptionT m Value :=
  OptionT.mk (pure v)

/-- The product of what two inputs evaluate to. A texture and a number are left pending; nothing
else that is pending or a texture has a product. -/
def product? : Evaluated → Evaluated → Option Evaluated
  | .resolved (.texture t), .resolved v =>
    if v.isNumeric then some (.pending ⟨t, v⟩) else none
  | .resolved v, .resolved (.texture t) =>
    if v.isNumeric then some (.pending ⟨t, v⟩) else none
  | .resolved v, .resolved w => (BinaryOperation.multiply.onValues? v w).map .resolved
  | _, _ => none

/-- The vector of the numbers in several properties, if all are there. -/
def vectorProperty? (n : Node) (names : List String) : Option Value :=
  (names.mapM n.scalarProperty?).map .vector

/-- The colour in the properties `R`, `G` and `B`, of which the first has to be there, or the
number in the property `Value`. -/
def genericProperty? (n : Node) : Option Value :=
  match n.scalarProperty? "R" with
  | some r =>
    some (.vector [r, (n.scalarProperty? "G").getD 0, (n.scalarProperty? "B").getD 0])
  | none => (n.scalarProperty? "Value").map .scalar

/-- The output pins at which a texture is sampled as a whole. -/
def textureOutputs : List String := ["RGB", "RGBA"]

/-- The texture that a node samples: the one it names, or else the placeholder. -/
def sampledTexture (ev : Evaluator) (n : Node) : String :=
  match (n.properties.get? "Texture").bind Literal.text? with
  | some s => if s.isEmpty then ev.settings.placeholderTexture else s
  | none => ev.settings.placeholderTexture

/-- What an output pin of a texture sample yields: the texture, or a number in place of a single
channel or of a texture that is not found. -/
def sample (ev : Evaluator) (n : Node) (output : String) : Value :=
  let id := ev.sampledTexture n
  if textureOutputs.any (Text.equalsIgnoringAsciiCase · output) then
    match ev.textureUrl? id with
    | some url => .texture ⟨id, url⟩
    | none => .scalar ev.settings.textureScalar
  else .scalar ev.settings.textureScalar

/-- A rule applied to a node for one of its output pins. -/
def applyRule {m : Type → Type} [Monad m] (ev : Evaluator) (rule : EvaluationRule) (n : Node)
    (output : String) (read : String → m (Option Evaluated)) : m (Option Evaluated) :=
  match rule with
  | .scalarProperty name => pure ((n.scalarProperty? name).map fun x => .resolved (.scalar x))
  | .vectorProperties names => pure ((vectorProperty? n names).map .resolved)
  | .binary .multiply => do
    let one := Evaluated.resolved (.scalar 1)
    let a ← read "A"
    let b ← read "B"
    pure (product? (a.getD one) (b.getD one))
  | .binary op => OptionT.run do
    let identity := op.identity?.map Value.scalar
    let a ← operand read "A"
    let a ← required (a <|> identity)
    let b ← operand read "B"
    let b ← required (b <|> identity)
    .resolved <$> required (op.onValues? a b)
  | .unary f => OptionT.run do
    let x ← operand read "Input"
    let x ← required x
    .resolved <$> required (f.onValue? x)
  | .lerp => OptionT.run do
    let a ← operand read "A"
    let b ← operand read "B"
    let alpha ← operand read "Alpha"
    let alpha := (alpha.filter Value.isNumeric).getD (.scalar 0.5)
    .resolved <$> required (Arithmetic.lerp? (a.getD (.scalar 0)) (b.getD (.scalar 1)) alpha)
  | .clamp => OptionT.run do
    let x ← operand read "Input"
    let x ← required x
    let low ← operand read "Min"
    let high ← operand read "Max"
    .resolved <$> required (Arithmetic.clamp? x (low.getD (.scalar 0)) (high.getD (.scalar 1)))
  | .append => OptionT.run do
    let a ← operand read "A"
    let a ← required a
    let b ← operand read "B"
    let b ← required b
    .resolved <$> required (Arithmetic.append? a b)
  | .textureSample => pure (some (.resolved (ev.sample n output)))
  | .passthrough pin => read pin
  | .generic => pure ((genericProperty? n).map .resolved)

/-- What an output pin of a node evaluates to, given a reader of the node's inputs; nothing if the
node's definition is unknown. -/
def evaluateNode {m : Type → Type} [Monad m] (ev : Evaluator) (n : Node) (output : String)
    (read : String → m (Option Evaluated)) : m (Option Evaluated) :=
  match ev.registry.get? n.key with
  | none => pure none
  | some d => ev.applyRule d.rule n output read

end Evaluator

end ShaderGraph
