import Stepwise.Algebra.Suggest
import Stepwise.Collections
import Stepwise.NormalForm
import Stepwise.Rule.Set

/-!
What all derivations of a worksheet share: the context, the normal form of new lines, the rules,
the source of suggestions, and the register of labelled expressions.
-/

namespace Stepwise

abbrev Normalizer := Context → Expr → Expr

structure Settings where
  context : Context
  normalizer : Normalizer
  catalog : Catalog
  provider : Provider
  labels : List (String × Expr)

namespace Settings

def keep : Normalizer := fun _ e => e

def ofCatalog (context : Context) (catalog : Catalog) : Settings :=
  ⟨context, keep, catalog, .none, []⟩

def catalogOf (rs : RuleSet) : Catalog := ⟨rs.table, rs.ids, rs.auto⟩

def ofRuleSet (rs : RuleSet) (parameters : List String) : Settings :=
  ofCatalog (rs.context.addParameters parameters) (catalogOf rs)

def normalize (settings : Settings) (e : Expr) : Expr := settings.normalizer settings.context e

def knows (settings : Settings) (label : String) (e : Expr) : Bool := (label, e) ∈ settings.labels

/-- Registers an expression under a label, unless that very pair is registered. -/
def register (settings : Settings) (label : String) (e : Expr) : Settings :=
  if settings.knows label e then settings
  else { settings with labels := settings.labels ++ [(label, e)] }

def labelled (settings : Settings) (label : String) : Attempt Expr :=
  match settings.labels.reverse.find? fun pair => pair.1 = label with
  | some pair => .ok pair.2
  | none => .error (.missing (.label label))

end Settings

end Stepwise
