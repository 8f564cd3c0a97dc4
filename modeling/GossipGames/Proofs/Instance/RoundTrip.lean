import GossipGames.Instance.Document
import GossipGames.Instance.Reader
import GossipGames.Proofs.Json.Reading
import GossipGames.Proofs.Json.Writing
import Mathlib.Data.Set.Subsingleton

/-!
# Instances and their documents

The reader of each part of an instance accepts exactly what is written for such a part.  So a
document is read back as the instance that it was written for.
-/

namespace GossipGames
namespace Json

/-- What is read as `a` is exactly what is written for `a`. -/
def Inverts (read : β → Option α) (write : α → β) : Prop :=
  ∀ v a, read v = some a ↔ v = write a

theorem inverts_mapM {read : β → Option α} {write : α → β} (h : Inverts read write) :
    Inverts (List.mapM read) (List.map write) := by
  intro vs
  induction vs with
  | nil =>
      intro as
      simp [eq_comm]
  | cons v vs ih =>
      intro as
      rw [List.mapM_cons]
      constructor
      · intro hread
        rcases Option.bind_eq_some_iff.mp hread with ⟨a, ha, hrest⟩
        rcases Option.bind_eq_some_iff.mp hrest with ⟨as', has, heq⟩
        cases heq
        rw [(h v a).mp ha, (ih as').mp has, List.map_cons]
      · intro hwritten
        cases as with
        | nil =>
            cases hwritten
        | cons a as =>
            rcases List.cons.inj hwritten with ⟨hv, hvs⟩
            rw [(h v a).mpr hv, (ih as).mpr hvs]
            rfl

theorem inverts_text : Inverts text? text := by
  intro v t
  cases v <;> simp [text?]

theorem inverts_items {read : Json → Option α} {write : α → Json} (h : Inverts read write) :
    Inverts (items? read) fun as => list (as.map write) := by
  intro v as
  cases v with
  | list vs =>
      rw [list.injEq]
      exact inverts_mapM h vs as
  | _ =>
      simp [items?]

theorem inverts_texts : Inverts (items? text?) texts :=
  inverts_items inverts_text

theorem inverts_entries {read : Json → Option α} {write : α → Json} (h : Inverts read write) :
    Inverts (entries? read) fun es => object (es.map fun e => (e.1, write e.2)) := by
  have hentry : Inverts (fun m : String × Json => (read m.2).map fun a => (m.1, a))
      fun e : String × α => (e.1, write e.2) := by
    intro m e
    rcases m with ⟨name, v⟩
    rcases e with ⟨name', a⟩
    simp [h v, and_comm]
  intro v es
  cases v with
  | object ms =>
      rw [object.injEq]
      exact inverts_mapM hentry ms es
  | _ =>
      simp [entries?]

theorem reads_field_iff {read : Json → Option α} {write : α → Json} (h : Inverts read write)
    {name : String} {ms rest : List (String × Json)} {a : α} :
    (field name read).Reads ms a rest ↔ ms = (name, write a) :: rest := by
  rw [field, Scanner.reads_take_iff]
  constructor
  · intro hread
    rcases hread with ⟨m, hms, hm⟩
    rcases m with ⟨name', v⟩
    rcases Option.ite_none_right_eq_some.mp hm with ⟨hname, hv⟩
    rw [hms, ← hname, (h v a).mp hv]
  · intro hms
    exact ⟨(name, write a), hms, by rw [if_pos rfl]; exact (h _ a).mpr rfl⟩

theorem record?_eq_some_iff {fields : Scanner (String × Json) α} {v : Json} {a : α} :
    record? fields v = some a ↔ ∃ ms, v = object ms ∧ fields.Reads ms a [] := by
  constructor
  · intro h
    unfold record? at h
    split at h
    · next ms =>
      split at h
      · next a' hnil hread =>
        cases h
        exact ⟨ms, rfl, hnil, hread⟩
      · cases h
    · cases h
  · intro h
    rcases h with ⟨ms, rfl, hnil, hread⟩
    simp [record?, hread]

end Json

open Json Scanner

theorem Transition.inverts_ofJson? : Inverts Transition.ofJson? Transition.toJson := by
  intro v t
  simp only [Transition.ofJson?, record?_eq_some_iff, reads_andThen_iff, reads_map_iff,
    reads_field_iff inverts_text]
  constructor
  · intro h
    rcases h with ⟨_, rfl, action, _, rfl, guard, _, rfl, target, rfl, rfl⟩
    rfl
  · intro h
    exact ⟨_, h, t.action, _, rfl, t.guard, _, rfl, t.target, rfl, rfl⟩

theorem State.inverts_ofJson? : Inverts State.ofJson? State.toJson := by
  intro v s
  simp only [State.ofJson?, record?_eq_some_iff, reads_andThen_iff, reads_map_iff,
    reads_field_iff inverts_texts, reads_field_iff (inverts_items Transition.inverts_ofJson?)]
  constructor
  · intro h
    rcases h with ⟨_, rfl, labels, _, rfl, transitions, rfl, rfl⟩
    rfl
  · intro h
    exact ⟨_, h, s.labels, _, rfl, s.transitions, rfl, rfl⟩

theorem Module.inverts_ofJson? : Inverts Module.ofJson? Module.toJson := by
  intro v m
  simp only [Module.ofJson?, record?_eq_some_iff, reads_andThen_iff, reads_map_iff,
    reads_field_iff inverts_text, reads_field_iff inverts_texts,
    reads_field_iff (inverts_entries State.inverts_ofJson?)]
  constructor
  · intro h
    rcases h with ⟨_, rfl, goal, _, rfl, payoff, _, rfl, actions, _, rfl, labels, _, rfl,
      initial, _, rfl, states, rfl, rfl⟩
    rfl
  · intro h
    exact ⟨_, h, m.goal, _, rfl, m.payoff, _, rfl, m.actions, _, rfl, m.labels, _, rfl,
      m.initial, _, rfl, m.states, rfl, rfl⟩

namespace Instance

theorem inverts_ofJson? : Inverts ofJson? toJson := by
  intro v g
  simp only [ofJson?, record?_eq_some_iff, reads_andThen_iff, reads_map_iff,
    reads_field_iff inverts_text, reads_field_iff inverts_texts,
    reads_field_iff (inverts_entries Module.inverts_ofJson?)]
  constructor
  · intro h
    rcases h with ⟨_, rfl, name, _, rfl, propositions, _, rfl, kind, _, rfl, goal, _, rfl, modules,
      rfl, rfl⟩
    rfl
  · intro h
    exact ⟨_, h, g.name, _, rfl, g.propositions, _, rfl, g.kind, _, rfl, g.goal, _, rfl, g.modules,
      rfl, rfl⟩

theorem read?_eq_some_iff {text : String} {g : Instance} :
    read? text = some g ↔ Denotes Phrase.element text.toList g.toJson := by
  rw [read?, Option.bind_eq_some_iff]
  constructor
  · intro h
    rcases h with ⟨v, hread, hv⟩
    rw [← (inverts_ofJson? v g).mp hv]
    exact Json.read?_eq_some_iff.mp hread
  · intro h
    exact ⟨g.toJson, Json.read?_eq_some_iff.mpr h, (inverts_ofJson? _ g).mpr rfl⟩

theorem read?_document (o : Output) (g : Instance) : read? (g.document o) = some g :=
  read?_eq_some_iff.mpr (denotes_document o g.toJson)

/-- Each document of an instance is a text of the grammar and is read back as the instance.  The
reader accepts no other texts than those of the grammar, and no text is the document of two
instances. -/
theorem reads_documents_back :
    (∀ o g, Denotes Phrase.element (document o g).toList g.toJson ∧
      read? (document o g) = some g) ∧
    (∀ text g, read? text = some g ↔ Denotes Phrase.element text.toList g.toJson) ∧
    (∀ text v, Json.read? text = some v ↔ Denotes Phrase.element text.toList v) ∧
    ∀ text, {g | ∃ o, document o g = text}.Subsingleton := by
  refine ⟨?_, ?_, ?_, ?_⟩
  · intro o g
    exact ⟨denotes_document o g.toJson, read?_document o g⟩
  · intro text g
    exact read?_eq_some_iff
  · intro text v
    exact Json.read?_eq_some_iff
  · intro text g hg g' hg'
    rcases hg with ⟨o, ho⟩
    rcases hg' with ⟨o', ho'⟩
    have hread := read?_document o g
    have hread' := read?_document o' g'
    rw [ho] at hread
    rw [ho'] at hread'
    exact Option.some.inj (hread.symm.trans hread')

end Instance
end GossipGames
