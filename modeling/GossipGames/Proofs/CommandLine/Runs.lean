import GossipGames.CommandLine.Outcome
import GossipGames.Proofs.Gossip.Soundness

/-!
# Runs of the command

A run is accepted when its count can be read, its configuration file, if it has one, can be loaded,
and the check is not asked to refuse the game of a single agent.  An accepted run writes the
document of its game whatever is said about the check.  Any other run fails and writes nothing.
-/

namespace GossipGames
namespace CommandLine

namespace Run

/-- The configured settings of a run: those of its configuration file, or the usual ones without
such a file. -/
def Loads (files : Files) (r : Run) (s : Settings) : Prop :=
  match r.config with
  | none => s = ⟨⟨Json.Style.compact, false⟩, ⟨false, false, 16⟩⟩
  | some path => Settings.ofFile (files path) = .ok s

def Checks (r : Run) (s : Settings) : Prop :=
  r.lint = true ∨ r.strict = true ∨ s.lint.enabled = true

def Denies (r : Run) (s : Settings) : Prop :=
  r.strict = true ∨ s.lint.denyWarnings = true

/-- The run is for `n` agents under the configured settings `s` and is not refused. -/
structure Accepted (files : Files) (r : Run) (n : AgentCount) (s : Settings) : Prop where
  count : AgentCount.read r.count = .ok n
  loaded : r.Loads files s
  permitted : ¬ (n.size = 1 ∧ r.Checks s ∧ r.Denies s)

/-- Two runs ask for the same document, whatever each of them says about the check. -/
structure SameDocument (files files' : Files) (r r' : Run) : Prop where
  count : r'.count = r.count
  style : r'.style = r.style
  output : ∀ s s', r.Loads files s → r'.Loads files' s' → s'.output = s.output

variable {files : Files} {r : Run} {n : AgentCount} {s : Settings}

theorem configured_eq_ok_iff : r.configured files = .ok s ↔ r.Loads files s := by
  unfold configured Loads
  cases r.config with
  | none =>
      simp only [Except.ok.injEq]
      exact eq_comm
  | some path =>
      cases hfile : Settings.ofFile (files path) <;> simp [hfile, Except.mapError]

theorem exists_configured_eq_error (h : ∀ s, ¬ r.Loads files s) :
    ∃ message, r.configured files = .error message := by
  cases hconfigured : r.configured files with
  | error message =>
      exact ⟨message, rfl⟩
  | ok s =>
      exact absurd (configured_eq_ok_iff.mp hconfigured) (h s)

theorem settings_enabled_iff : (r.settings s).lint.enabled = true ↔ r.Checks s := by
  simp only [settings, Checks, Bool.or_eq_true]
  constructor
  · intro h
    rcases h with (henabled | hlint) | hstrict
    · exact Or.inr (Or.inr henabled)
    · exact Or.inl hlint
    · exact Or.inr (Or.inl hstrict)
  · intro h
    rcases h with hlint | hstrict | henabled
    · exact Or.inl (Or.inr hlint)
    · exact Or.inr hstrict
    · exact Or.inl (Or.inl henabled)

theorem settings_denyWarnings_iff : (r.settings s).lint.denyWarnings = true ↔ r.Denies s := by
  simp only [settings, Denies, Bool.or_eq_true]
  exact or_comm

theorem findings_ne_nil_iff :
    Gossip.findings s n ≠ [] ↔ n.size = 1 ∧ s.lint.enabled = true := by
  unfold Gossip.findings
  cases s.lint.enabled with
  | false =>
      simp
  | true =>
      by_cases hsize : n.size = 1
      · simp [hsize, Gossip.check_build_alone]
      · simp [hsize, Gossip.check_build_several]

theorem warnings_eq_empty_iff {findings : List Lint.Finding} :
    warnings findings = "" ↔ findings = [] := by
  cases findings with
  | nil =>
      simp [warnings]
  | cons f fs =>
      simp [warnings, Lint.Finding.display]

theorem write_of_refused (hfindings : Gossip.findings s n ≠ [])
    (hdeny : s.lint.denyWarnings = true) : ∃ message, write s n = Outcome.failure message := by
  have hrefused : (s.lint.denyWarnings && !(Gossip.findings s n).isEmpty) = true := by
    simp [hdeny, hfindings]
  exact ⟨_, by rw [write, if_pos hrefused]⟩

theorem write_of_permitted
    (h : ¬ (Gossip.findings s n ≠ [] ∧ s.lint.denyWarnings = true)) :
    write s n = ⟨0, Gossip.document s n, warnings (Gossip.findings s n)⟩ := by
  have hpermitted : ¬ (s.lint.denyWarnings && !(Gossip.findings s n).isEmpty) = true := by
    simp only [Bool.and_eq_true, Bool.not_eq_true', List.isEmpty_eq_false_iff]
    exact fun hboth => h ⟨hboth.2, hboth.1⟩
  rw [write, if_neg hpermitted]

theorem outcome_of_read_error {e : InvalidArgument} (h : AgentCount.read r.count = .error e) :
    r.outcome files = ⟨1, "", "Error: " ++ e.message ++ "\n"⟩ := by
  simp only [outcome, h]
  rfl

theorem outcome_of_loads (hcount : AgentCount.read r.count = .ok n) (hloads : r.Loads files s) :
    r.outcome files = write (r.settings s) n := by
  simp only [outcome, hcount, configured_eq_ok_iff.mpr hloads]

theorem refused_iff :
    (Gossip.findings (r.settings s) n ≠ [] ∧ (r.settings s).lint.denyWarnings = true) ↔
      n.size = 1 ∧ r.Checks s ∧ r.Denies s := by
  rw [findings_ne_nil_iff, settings_enabled_iff, settings_denyWarnings_iff, and_assoc]

theorem outcome_of_accepted (h : r.Accepted files n s) :
    r.outcome files =
      ⟨0, (Gossip.build n).document ⟨r.style.getD s.output.style, s.output.trailingNewline⟩,
        warnings (Gossip.findings (r.settings s) n)⟩ := by
  rw [outcome_of_loads h.count h.loaded]
  exact write_of_permitted fun hrefused => h.permitted (refused_iff.mp hrefused)

theorem outcome_of_not_accepted (h : ∀ n s, ¬ r.Accepted files n s) :
    ∃ message, r.outcome files = Outcome.failure message := by
  cases hcount : AgentCount.read r.count with
  | error e =>
      exact ⟨_, outcome_of_read_error hcount⟩
  | ok n =>
      by_cases hloads : ∃ s, r.Loads files s
      · rcases hloads with ⟨s, hloads⟩
        have hrefused : n.size = 1 ∧ r.Checks s ∧ r.Denies s := by
          by_contra hpermitted
          exact h n s ⟨hcount, hloads, hpermitted⟩
        rcases refused_iff.mpr hrefused with ⟨hfindings, hdeny⟩
        rw [outcome_of_loads hcount hloads]
        exact write_of_refused hfindings hdeny
      · rcases exists_configured_eq_error (fun s hs => hloads ⟨s, hs⟩) with ⟨message, hmessage⟩
        exact ⟨message, by simp only [outcome, hcount, hmessage]⟩

end Run

theorem outcome_of_run_request {files : Files} {arguments : List String} {r : Run}
    (h : Request.ofArguments arguments = .ok (.run r)) :
    outcome files arguments = r.outcome files := by
  simp only [outcome, h]

theorem exitCode_eq_zero_iff {files : Files} {r : Run} :
    (r.outcome files).exitCode = 0 ↔ ∃ n s, r.Accepted files n s := by
  constructor
  · intro hexit
    by_contra hrejected
    rcases @Run.outcome_of_not_accepted files r
      (fun n s h => hrejected ⟨n, s, h⟩) with ⟨message, hmessage⟩
    rw [hmessage] at hexit
    cases hexit
  · intro haccepted
    rcases haccepted with ⟨n, s, h⟩
    rw [Run.outcome_of_accepted h]

theorem outcome_of_exitCode_ne_zero {files : Files} {r : Run}
    (h : (r.outcome files).exitCode ≠ 0) :
    (r.outcome files).exitCode = 1 ∧ (r.outcome files).stdout = "" := by
  rcases @Run.outcome_of_not_accepted files r
    (fun n s haccepted => h (exitCode_eq_zero_iff.mpr ⟨n, s, haccepted⟩)) with ⟨message, hmessage⟩
  rw [hmessage]
  exact ⟨rfl, rfl⟩

theorem stdout_eq_of_sameDocument {files files' : Files} {r r' : Run}
    (hsame : Run.SameDocument files files' r r') (h : (r.outcome files).exitCode = 0)
    (h' : (r'.outcome files').exitCode = 0) :
    (r'.outcome files').stdout = (r.outcome files).stdout := by
  rcases exitCode_eq_zero_iff.mp h with ⟨n, s, haccepted⟩
  rcases exitCode_eq_zero_iff.mp h' with ⟨n', s', haccepted'⟩
  have hcount : n' = n := by
    have hread := haccepted'.count
    rw [hsame.count, haccepted.count] at hread
    exact (Except.ok.inj hread).symm
  rw [Run.outcome_of_accepted haccepted, Run.outcome_of_accepted haccepted', hcount, hsame.style,
    hsame.output s s' haccepted.loaded haccepted'.loaded]

/-- The contract of the command when its arguments ask for a run: the exit code says whether the run
is accepted, and what is written depends on the count, the style and the configured output only. -/
theorem outcome_of_run {files : Files} {arguments : List String} {r : Run}
    (h : Request.ofArguments arguments = .ok (.run r)) :
    ((outcome files arguments).exitCode = 0 ∨
      (outcome files arguments).exitCode = 1 ∧ (outcome files arguments).stdout = "") ∧
    ((outcome files arguments).exitCode = 0 ↔ ∃ n s, r.Accepted files n s) ∧
    (∀ n s, r.Accepted files n s →
      (outcome files arguments).stdout = (Gossip.build n).document
        ⟨r.style.getD s.output.style, s.output.trailingNewline⟩ ∧
      ((outcome files arguments).stderr = "" ↔ ¬ (n.size = 1 ∧ r.Checks s))) ∧
    (∀ files' arguments' r', Request.ofArguments arguments' = .ok (.run r') →
      Run.SameDocument files files' r r' →
      (outcome files arguments).exitCode = 0 → (outcome files' arguments').exitCode = 0 →
      (outcome files' arguments').stdout = (outcome files arguments).stdout) ∧
    ∀ e, AgentCount.read r.count = .error e →
      outcome files arguments = ⟨1, "", "Error: " ++ e.message ++ "\n"⟩ := by
  rw [outcome_of_run_request h]
  refine ⟨?_, exitCode_eq_zero_iff, ?_, ?_, ?_⟩
  · by_cases hexit : (r.outcome files).exitCode = 0
    · exact Or.inl hexit
    · exact Or.inr (outcome_of_exitCode_ne_zero hexit)
  · intro n s haccepted
    rw [Run.outcome_of_accepted haccepted]
    refine ⟨rfl, ?_⟩
    show Run.warnings (Gossip.findings (r.settings s) n) = "" ↔ _
    rw [Run.warnings_eq_empty_iff, ← not_iff_not, not_not, ← ne_eq, Run.findings_ne_nil_iff,
      Run.settings_enabled_iff]
  · intro files' arguments' r' h' hsame
    rw [outcome_of_run_request h']
    exact stdout_eq_of_sameDocument hsame
  · intro e he
    exact Run.outcome_of_read_error he

theorem outcome_of_strict_run :
    Request.ofArguments ["--strict", "--style=pretty", "2"] =
        .ok (.run ⟨"2", some Json.Style.pretty, none, false, true⟩) ∧
      (outcome (fun _ => .error .denied) ["--strict", "--style=pretty", "2"]).exitCode = 0 ∧
      (outcome (fun _ => .error .denied) ["--strict", "--style=pretty", "2"]).stdout =
        (Gossip.build ⟨2, by decide, by decide⟩).document ⟨Json.Style.pretty, false⟩ ∧
      (outcome (fun _ => .error .denied) ["--strict", "--style=pretty", "2"]).stderr = "" := by
  have hrequest : Request.ofArguments ["--strict", "--style=pretty", "2"] =
      .ok (.run ⟨"2", some Json.Style.pretty, none, false, true⟩) := by
    rfl
  have hcount : AgentCount.read "2" = .ok ⟨2, by decide, by decide⟩ := by
    rfl
  have haccepted : Run.Accepted (fun _ => .error .denied)
      ⟨"2", some Json.Style.pretty, none, false, true⟩ ⟨2, by decide, by decide⟩
      ⟨⟨Json.Style.compact, false⟩, ⟨false, false, 16⟩⟩ :=
    ⟨hcount, rfl, fun hrefused => absurd hrefused.1 (by decide)⟩
  rcases @outcome_of_run (fun _ => .error .denied) _ _ hrequest with
    ⟨_, hexit, hdocument, _, _⟩
  rcases hdocument _ _ haccepted with ⟨hstdout, hstderr⟩
  refine ⟨hrequest, hexit.mpr ⟨_, _, haccepted⟩, hstdout, hstderr.mpr ?_⟩
  exact fun hfindings => absurd hfindings.1 (by decide)

end CommandLine
end GossipGames
