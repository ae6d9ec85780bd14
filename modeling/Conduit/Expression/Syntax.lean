import Conduit.Json.Basic
import Conduit.Basic

/-! Expressions over what is known when a channel is compiled: literals, paths into five name spaces,
a fallback, a choice, and a value turned into its JSON text. -/
namespace Conduit

inductive Namespace where
  | params | stage | channel | runtime | env
  deriving DecidableEq, Repr

namespace Namespace

def name : Namespace → String
  | .params => "params"
  | .stage => "stage"
  | .channel => "channel"
  | .runtime => "runtime"
  | .env => "env"

def all : List Namespace := [.params, .stage, .channel, .runtime, .env]

def ofName? (name : String) : Option Namespace := all.find? (·.name = name)

theorem ofName?_name (n : Namespace) : ofName? n.name = some n := by cases n <;> decide

end Namespace

inductive Segment where
  | key (name : String)
  | index (n : Nat)
  deriving DecidableEq, Repr

structure Path where
  root : Namespace
  segments : List Segment
  deriving DecidableEq, Repr

def Segment.text : Segment → String
  | .key name => "." ++ name
  | .index n => s!"[{n}]"

def Path.text (p : Path) : String := p.root.name ++ String.join (p.segments.map Segment.text)

inductive Expr where
  | literal (v : Json)
  | path (p : Path)
  | orElse (left right : Expr)
  | choose (condition yes no : Expr)
  | stringify (inner : Expr)
  deriving Repr

namespace Expr

instance : Inhabited Expr := ⟨.literal .null⟩

def height : Expr → Nat
  | .literal _ => 0
  | .path _ => 0
  | .orElse l r => max l.height r.height + 1
  | .choose c y n => max c.height (max y.height n.height) + 1
  | .stringify e => e.height + 1

def paths : Expr → List Path
  | .literal _ => []
  | .path p => [p]
  | .orElse l r => l.paths ++ r.paths
  | .choose c y n => c.paths ++ y.paths ++ n.paths
  | .stringify e => e.paths

end Expr

/-! The value of an expression. A path that leads nowhere has the value `null`, so every expression has
a value in every scope. -/

abbrev Scope := Namespace → Option Json

def Json.truthy : Json → Bool
  | .null => false
  | .bool b => b
  | .num n => !n.toDouble.isZero
  | .str s => s ≠ ""
  | .arr _ => true
  | .obj _ => true

def Segment.step : Segment → Json → Option Json
  | .key name, .obj fields => Table.get? fields name
  | .index n, .arr items => items[n]?
  | .key name, .arr items => (Text.natural64? name.toList).bind (items[·]?)
  | _, _ => none

def Path.follow (v : Json) : List Segment → Option Json
  | [] => some v
  | s :: rest => (s.step v).bind (follow · rest)

def Path.lookup (p : Path) (scope : Scope) : Option Json := (scope p.root).bind (follow · p.segments)

def Expr.eval (scope : Scope) : Expr → Json
  | .literal v => v
  | .path p => (p.lookup scope).getD .null
  | .orElse l r => if (l.eval scope).truthy then l.eval scope else r.eval scope
  | .choose c y n => if (c.eval scope).truthy then y.eval scope else n.eval scope
  | .stringify e => .str (e.eval scope).compact

end Conduit
