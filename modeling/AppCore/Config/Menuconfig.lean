/-
  AppCore.Config.Menuconfig

  The modules of `tools/menuconfig.py` and what it does with their dependencies: the check of
  the dependency graph, and the loop that turns off what lacks a dependency.
-/

import AppCore.Config.Text
import AppCore.Lib.Dict
import AppCore.Lib.Digraph

namespace AppCore
namespace Config

/-- A module, as `load_modules` reads it from its manifest. -/
structure Module where
  name : Text
  id : Text
  config : Text
  prompt : Text
  default : Text
  idValue : Int
  sources : List Text
  depends : List Text
  enabled : Bool
  path : Text
deriving DecidableEq, Repr

/-- The names of the modules' configuration entries. -/
abbrev configs (modules : List Module) : List Text := modules.map (·.config)

/-! ## `validate_dependency_graph` -/

/-- The texts of the errors `validate_dependency_graph` raises. -/
def faultMessage : Digraph.Fault Text → Text
  | .cycle path => "module dependency cycle: ".toList ++ " -> ".toList.intercalate path
  | .unknown a b => a ++ " has unknown dependency: ".toList ++ b

/-- `dependencies` in `validate_dependency_graph`. -/
def dependencyMap (modules : List Module) : Dict Text (List Text) :=
  Dict.ofList (modules.map fun m => (m.config, m.depends))

/-- `dependencies[config]`, for a key. -/
def dependenciesOf (dependencies : Dict Text (List Text)) (config : Text) : List Text :=
  (dependencies.get? config).getD []

/-- `validate_dependency_graph`: `visit` for every key, with the `visited` set.  The fuel is
    that of `Digraph.searchAll_spec`. -/
def validateDependencyGraph (modules : List Module) : Digraph.Result Text :=
  let dependencies := dependencyMap modules
  Digraph.searchAll (dependenciesOf dependencies) (dependencies.map (·.1)) true
    (dependencies.length + 1)

/-- A check has found no fault. -/
def Passes (r : Digraph.Result Text) : Prop := ∃ visited, r = some (.ok visited)

/-- Stop with the message of a fault, or go on with a value.  A check that ends is not `none`. -/
def ifPasses {α : Type} (r : Digraph.Result Text) (message : Digraph.Fault Text → Text) (a : α) :
    Except Text α :=
  match r with
  | some (.ok _) => .ok a
  | some (.error fault) => .error (message fault)
  | none => .error []

theorem ifPasses_eq_ok {α : Type} {r : Digraph.Result Text} {message : Digraph.Fault Text → Text}
    {a b : α} : ifPasses r message a = .ok b ↔ a = b ∧ Passes r := by
  unfold ifPasses Passes
  split <;> simp

/-! ## `normalize_dependencies` -/

/-- `enabled` in `normalize_dependencies`. -/
def enabledMap (modules : List Module) : Dict Text Bool :=
  Dict.ofList (modules.map fun m => (m.config, m.enabled))

/-- `enabled.get(dep, False)`. -/
def isEnabled (enabled : Dict Text Bool) (dep : Text) : Bool := (enabled.get? dep).getD false

/-- One pass of the inner loop of `normalize_dependencies`, with the value of `changed` after
    it. -/
def normalizePass : List Module → Dict Text Bool → List Module × Dict Text Bool × Bool
  | [], enabled => ([], enabled, false)
  | m :: rest, enabled =>
    if m.enabled = true ∧ m.depends.any (fun dep => !isEnabled enabled dep) then
      let (rest, enabled, _) := normalizePass rest (enabled.insert m.config false)
      ({ m with enabled := false } :: rest, enabled, true)
    else
      let (rest, enabled, changed) := normalizePass rest enabled
      (m :: rest, enabled, changed)

/-- The outer loop of `normalize_dependencies`. -/
def normalizeLoop : Nat → List Module → Dict Text Bool → Option (List Module)
  | 0, _, _ => none
  | fuel + 1, modules, enabled =>
    let (modules, enabled, changed) := normalizePass modules enabled
    if changed = true then normalizeLoop fuel modules enabled else some modules

/-- The number of enabled modules. -/
def enabledCount (modules : List Module) : Nat := modules.countP (·.enabled)

theorem enabledCount_cons (m : Module) (rest : List Module) :
    enabledCount (m :: rest) = enabledCount rest + if m.enabled = true then 1 else 0 :=
  List.countP_cons

/-- A pass that has changed something has turned a module off. -/
theorem normalizePass_count (modules : List Module) (enabled : Dict Text Bool) :
    enabledCount (normalizePass modules enabled).1 ≤ enabledCount modules ∧
      ((normalizePass modules enabled).2.2 = true →
        enabledCount (normalizePass modules enabled).1 < enabledCount modules) := by
  induction modules generalizing enabled with
  | nil => exact ⟨le_rfl, fun h => by cases h⟩
  | cons m rest ih =>
      unfold normalizePass
      split
      · rename_i hoff
        have hrest := (ih (enabled.insert m.config false)).1
        have hlt : enabledCount ({ m with enabled := false } ::
            (normalizePass rest (enabled.insert m.config false)).1) < enabledCount (m :: rest) := by
          rw [enabledCount_cons, enabledCount_cons, if_neg Bool.false_ne_true, if_pos hoff.1]
          omega
        exact ⟨hlt.le, fun _ => hlt⟩
      · obtain ⟨hle, hlt⟩ := ih enabled
        dsimp only
        rw [enabledCount_cons, enabledCount_cons]
        exact ⟨by omega, fun hchanged => by have := hlt hchanged; omega⟩

/-- The loop ends: every pass but the last turns a module off. -/
theorem normalizeLoop_isSome {fuel : Nat} {modules : List Module} {enabled : Dict Text Bool}
    (h : enabledCount modules < fuel) : (normalizeLoop fuel modules enabled).isSome = true := by
  induction fuel generalizing modules enabled with
  | zero => omega
  | succ fuel ih =>
      unfold normalizeLoop
      dsimp only
      split
      · rename_i hchanged
        have hlt := (normalizePass_count modules enabled).2 hchanged
        exact ih (by omega)
      · rfl

/-- `normalize_dependencies`: the modules it leaves. -/
def normalizeDependencies (modules : List Module) : List Module :=
  (normalizeLoop (enabledCount modules + 1) modules (enabledMap modules)).get
    (normalizeLoop_isSome (Nat.lt_succ_self _))

end Config
end AppCore
