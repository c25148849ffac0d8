import Stepwise.Worksheet.Derivation

/-!
Worksheets: stored derivations under shared settings. Storing a derivation registers its labelled
lines.
-/

namespace Stepwise

structure Worksheet where
  settings : Settings
  sequences : List History

namespace Worksheet

def ofSettings (settings : Settings) : Worksheet := ⟨settings, []⟩

def start (ws : Worksheet) (action : Action) (e : Expr) : Worksheet :=
  { ws with sequences := ws.sequences ++ [[.byUser action e]] }

def introduce (ws : Worksheet) (e : Expr) : Worksheet := ws.start (.introduce none) e

def introduceLabelled (ws : Worksheet) (label : String) : Attempt Worksheet := do
  let e ← ws.settings.labelled label
  return ws.start (.introduce (some label)) e

def sequence (ws : Worksheet) (index : Int) : Attempt History :=
  match Index.get? ws.sequences index with
  | some history => .ok history
  | none => .error .outOfRange

def publish (settings : Settings) : History → Settings × List Notice
  | [] => (settings, [])
  | line :: rest =>
      match line.name? with
      | none => publish settings rest
      | some label =>
          if settings.knows label line.expr then publish settings rest
          else
            let (registered, notices) := publish (settings.register label line.expr) rest
            (registered, .labelPublished label :: notices)

def store (ws : Worksheet) (index : Int) (history : History) : Logged Worksheet :=
  match Index.set? ws.sequences index history with
  | none => .ofAttempt (.error .outOfRange)
  | some sequences =>
      let (settings, notices) := publish ws.settings history
      ⟨notices, .ok ⟨settings, sequences⟩⟩

end Worksheet

end Stepwise
