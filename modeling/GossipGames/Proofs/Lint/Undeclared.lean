import GossipGames.Proofs.Guard.Leaves
import GossipGames.Proofs.Lint.Decision
import GossipGames.Proofs.Text.ByteOrder
import GossipGames.Proofs.Text.Sorted

/-!
# Names that are not declared

A goal is searched for names token by token, and a guard is read first.  Of a text that is a guard
both find the same names, so a goal and a guard of this text lack the same declarations, but for the
letters of the temporal operators.
-/

namespace GossipGames
namespace Lint

structure Lists (names : List String) (p : String → Prop) : Prop where
  ascend : names.Pairwise fun a b => bytes a < bytes b
  mem : ∀ a, a ∈ names ↔ p a

theorem lists_ofList (names : List String) : Lists (Sorted.ofList names) (· ∈ names) where
  ascend := (Sorted.pairwise_ofList names).imp lt_iff_bytes_lt.mp
  mem _ := Sorted.mem_ofList

theorem Lists.filter {names : List String} {p : String → Prop} (h : Lists names p)
    (keep : String → Bool) : Lists (names.filter keep) fun a => p a ∧ keep a = true where
  ascend := h.ascend.filter keep
  mem a := by
    rw [List.mem_filter, h.mem]

def undeclaredNames (declared : List String) (text : String) : List String :=
  (Sorted.ofList (names text)).filter fun name => !declared.contains name

variable {declared : List String} {text : String} {g : Guard}

theorem names_eq_filterMap (text : String) :
    names text = ((Guard.lex text).map Guard.Piece.lexeme).filterMap Guard.Lexeme.name? := by
  rw [names, List.filterMap_map]
  congr 1
  funext p
  unfold Function.comp Guard.Lexeme.name? Guard.Token.name?
  cases p.lexeme with
  | unknown c =>
      rfl
  | token t =>
      cases t <;> rfl

theorem leaves_eq_names (h : Guard.parse text = .ok g) : g.leaves = names text := by
  rw [names_eq_filterMap, Guard.leaves_of_parse h]

theorem goalDefects_eq (declared : List String) (goal : String) :
    goalDefects declared goal =
      ((undeclaredNames declared goal).filter fun name => !temporalOperators.contains name).map
        Defect.undeclaredInGoal := by
  rw [goalDefects, undeclaredNames, List.filter_filter, Sorted.filter_ofList]

theorem guardDefects_of_parse (h : Guard.parse text = .ok g) :
    guardDefects declared text =
      if undeclaredNames declared text = [] then []
      else [.undeclaredInGuard (undeclaredNames declared text)] := by
  have hmissing : (g.propositions.filter fun name => !declared.contains name) =
      undeclaredNames declared text := by
    rw [Guard.propositions, leaves_eq_names h, undeclaredNames]
  rw [guardDefects, judge, if_neg (Guard.trim_ne_nil_of_parse h), h]
  dsimp only
  rw [hmissing]
  cases undeclaredNames declared text with
  | nil =>
      rfl
  | cons p ps =>
      rfl

theorem lists_undeclaredNames (declared : List String) (text : String) :
    Lists (undeclaredNames declared text) fun p => p ∈ names text ∧ p ∉ declared := by
  simpa [undeclaredNames] using (lists_ofList (names text)).filter fun p => !declared.contains p

theorem filter_temporalOperators (ps : List String) :
    (ps.filter fun name => !temporalOperators.contains name) =
      ps.filter fun name => name ∉ ["F", "G", "X", "U", "R", "W", "M"] := by
  simp [temporalOperators]

theorem lists_undeclared (declared : List String) (goal : String) :
    Lists ((undeclaredNames declared goal).filter fun p => p ∉ ["F", "G", "X", "U", "R", "W", "M"])
      fun p => Guard.Lexeme.token (Guard.Token.name p) ∈ (Guard.lex goal).map Guard.Piece.lexeme ∧
        p ∉ declared ∧ p ∉ ["F", "G", "X", "U", "R", "W", "M"] where
  ascend := (lists_undeclaredNames declared goal).ascend.filter _
  mem p := by
    rw [List.mem_filter, (lists_undeclaredNames declared goal).mem, ← mem_names_iff, and_assoc,
      decide_eq_true_eq]

/-- The leaves of a guard are the names of its text, and the text lacks the same declarations as a
guard and as a goal, but for the letters of the temporal operators.  A text that need not be a guard
has, as a goal, one finding for each name that it lacks. -/
theorem goal_and_guard_name_alike :
    (∀ text g, Guard.parse text = .ok g →
      g.leaves = names text ∧ Lists g.propositions (· ∈ names text) ∧
        ∀ declared, ∃ missing, Lists missing (fun p => p ∈ names text ∧ p ∉ declared) ∧
          guardDefects declared text =
            (if missing = [] then [] else [.undeclaredInGuard missing]) ∧
          goalDefects declared text =
            (missing.filter fun p => p ∉ ["F", "G", "X", "U", "R", "W", "M"]).map
              Defect.undeclaredInGoal) ∧
    ∀ declared goal location, ∃ undeclared,
      Lists undeclared (fun p =>
        Guard.Lexeme.token (Guard.Token.name p) ∈ (Guard.lex goal).map Guard.Piece.lexeme ∧
          p ∉ declared ∧ p ∉ ["F", "G", "X", "U", "R", "W", "M"]) ∧
      findingsAt location (goalDefects declared goal) =
        undeclared.map fun p => ⟨location, Defect.undeclaredInGoal p⟩ := by
  have hgoal : ∀ declared goal, goalDefects declared goal =
      ((undeclaredNames declared goal).filter fun p => p ∉ ["F", "G", "X", "U", "R", "W", "M"]).map
        Defect.undeclaredInGoal := by
    intro declared goal
    rw [goalDefects_eq, filter_temporalOperators]
  constructor
  · intro text g h
    have hleaves := leaves_eq_names h
    constructor
    · exact hleaves
    · constructor
      · rw [Guard.propositions, hleaves]
        exact lists_ofList (names text)
      · intro declared
        exact ⟨undeclaredNames declared text, lists_undeclaredNames declared text,
          guardDefects_of_parse h, hgoal declared text⟩
  · intro declared goal location
    exact ⟨_, lists_undeclared declared goal, by rw [hgoal, findingsAt, List.map_map]; rfl⟩

theorem goal_and_guard_name_alike_with_operators :
    let text := "G & (p -> !F) | p ^ q"
    let g := Guard.xor
      (Guard.or [Guard.and [Guard.var "G",
        Guard.implies (Guard.var "p") (Guard.not (Guard.var "F"))], Guard.var "p"])
      (Guard.var "q")
    Guard.parse text = .ok g ∧ names text = ["G", "p", "F", "p", "q"] ∧
      ∃ missing, Lists missing (fun p => p ∈ names text ∧ p ∉ ["q"]) ∧
        guardDefects ["q"] text = (if missing = [] then [] else [.undeclaredInGuard missing]) ∧
        goalDefects ["q"] text =
          (missing.filter fun p => p ∉ ["F", "G", "X", "U", "R", "W", "M"]).map
            Defect.undeclaredInGoal := by
  intro text g
  have hparse : Guard.parse text = .ok g := by
    decide +kernel
  rcases goal_and_guard_name_alike.1 text g hparse with ⟨hleaves, _, hmissing⟩
  exact ⟨hparse, hleaves.symm, hmissing ["q"]⟩

end Lint
end GossipGames
