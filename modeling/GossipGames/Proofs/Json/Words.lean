import GossipGames.Proofs.Json.Grammar
import Mathlib.Data.List.TakeWhile
import Mathlib.Tactic.SplitIfs

/-!
# Reading texts, numbers and words

The scanners of the parts that hold no others are sound and complete.  Only a number depends on
what follows it: this must not be another digit.
-/

namespace GossipGames
namespace Json

open Scanner (Avoids)

theorem reads_numbered_iff {s rest : List Char} {n : Nat} :
    numbered.Reads s n rest ↔ ∃ d₁ d₂ d₃ d₄, s = '\\' :: 'u' :: d₁ :: d₂ :: d₃ :: d₄ :: rest ∧
      hexNumber? [d₁, d₂, d₃, d₄] = some n := by
  constructor
  · intro h
    rcases h with ⟨hlt, h⟩
    unfold numbered at h
    split at h
    · next d₁ d₂ d₃ d₄ s =>
      rcases Option.map_eq_some_iff.mp h with ⟨m, hm, heq⟩
      cases heq
      exact ⟨d₁, d₂, d₃, d₄, rfl, hm⟩
    · cases h
  · intro h
    rcases h with ⟨d₁, d₂, d₃, d₄, rfl, hn⟩
    have hlt : rest.length < ('\\' :: 'u' :: d₁ :: d₂ :: d₃ :: d₄ :: rest).length := by
      simp only [List.length_cons]
      omega
    exact ⟨hlt, by simp [numbered, hn, Shorter.one, Shorter.tail]⟩

theorem reads_plain_iff {s rest : List Char} {c : Char} :
    plain.Reads s c rest ↔ s = c :: rest ∧ c ≠ '"' ∧ c ≠ '\\' ∧ 0x20 ≤ c.toNat := by
  rw [plain, Scanner.reads_take_iff]
  constructor
  · intro h
    rcases h with ⟨d, hs, hd⟩
    split_ifs at hd with hspecial
    cases hd
    simp only [not_or, Nat.not_lt] at hspecial
    exact ⟨hs, hspecial⟩
  · intro h
    rcases h with ⟨hs, hquote, hback, hc⟩
    exact ⟨c, hs, by simp [hquote, hback, hc]⟩

theorem reads_lettered_iff {s rest : List Char} {c : Char} :
    lettered.Reads s c rest ↔ ∃ l, s = '\\' :: l :: rest ∧ letter? l = some c := by
  rw [lettered, Scanner.reads_precededBy_symbol_iff]
  constructor
  · intro h
    rcases h with ⟨t, hs, hletter⟩
    rcases Scanner.reads_take_iff.mp hletter with ⟨l, rfl, hl⟩
    exact ⟨l, hs, hl⟩
  · intro h
    rcases h with ⟨l, hs, hl⟩
    exact ⟨l :: rest, hs, Scanner.reads_take_iff.mpr ⟨l, rfl, hl⟩⟩

theorem reads_paired_iff {s rest : List Char} {c : Char} :
    paired.Reads s c rest ↔ ∃ high low mid, numbered.Reads s high mid ∧
      numbered.Reads mid low rest ∧ surrogates? high low = some c := by
  rw [paired, Scanner.reads_mapSome_iff]
  constructor
  · intro h
    rcases h with ⟨q, hpair, hc⟩
    rcases Scanner.reads_andThen_iff.mp hpair with ⟨high, mid, hhigh, hmapped⟩
    rcases Scanner.reads_map_iff.mp hmapped with ⟨low, hlow, rfl⟩
    exact ⟨high, low, mid, hhigh, hlow, hc⟩
  · intro h
    rcases h with ⟨high, low, mid, hhigh, hlow, hc⟩
    exact ⟨(high, low), Scanner.reads_andThen_iff.mpr
      ⟨high, mid, hhigh, Scanner.reads_map_iff.mpr ⟨low, hlow, rfl⟩⟩, hc⟩

theorem sound_character : Scanner.Sound character Character := by
  apply Scanner.sound_orElse
  · intro s c rest h
    rcases reads_plain_iff.mp h with ⟨hs, hquote, hback, hc⟩
    exact ⟨[c], hs, Character.plain hquote hback hc⟩
  · apply Scanner.sound_orElse
    · intro s c rest h
      rcases reads_lettered_iff.mp h with ⟨l, hs, hl⟩
      exact ⟨['\\', l], hs, Character.letter hl⟩
    · apply Scanner.sound_orElse
      · intro s c rest h
        rcases Scanner.reads_mapSome_iff.mp h with ⟨n, hnumber, hc⟩
        rcases reads_numbered_iff.mp hnumber with ⟨d₁, d₂, d₃, d₄, hs, hn⟩
        exact ⟨_, hs, Character.number hn hc⟩
      · intro s c rest h
        rcases reads_paired_iff.mp h with ⟨high, low, mid, hhigh, hlow, hc⟩
        rcases reads_numbered_iff.mp hhigh with ⟨d₁, d₂, d₃, d₄, hs, hhigh⟩
        rcases reads_numbered_iff.mp hlow with ⟨e₁, e₂, e₃, e₄, hmid, hlow⟩
        rw [hmid] at hs
        exact ⟨_, hs, Character.surrogates hhigh hlow hc⟩

theorem character?_of_surrogates {high low : Nat} {c : Char} (h : surrogates? high low = some c) :
    character? high = none := by
  unfold surrogates? at h
  split_ifs at h with hrange
  have hinvalid : ¬ high.isValidChar := by
    simp only [Nat.isValidChar]
    omega
  exact if_neg hinvalid

theorem complete_character : Scanner.Complete character Character (fun _ => True) := by
  intro ts c rest h _
  have hplain : ∀ s, plain ('\\' :: s) = none := fun _ => rfl
  have hlettered : ∀ s, lettered ('\\' :: 'u' :: s) = none := fun _ => rfl
  cases h with
  | plain hquote hback hc =>
      exact Scanner.reads_orElse_left (reads_plain_iff.mpr ⟨rfl, hquote, hback, hc⟩)
  | letter hl =>
      apply Scanner.reads_orElse_right (hplain _)
      exact Scanner.reads_orElse_left (reads_lettered_iff.mpr ⟨_, rfl, hl⟩)
  | number hn hc =>
      apply Scanner.reads_orElse_right (hplain _)
      apply Scanner.reads_orElse_right (hlettered _)
      apply Scanner.reads_orElse_left
      exact Scanner.reads_mapSome_iff.mpr
        ⟨_, reads_numbered_iff.mpr ⟨_, _, _, _, rfl, hn⟩, hc⟩
  | surrogates hhigh hlow hc =>
      apply Scanner.reads_orElse_right (hplain _)
      apply Scanner.reads_orElse_right (hlettered _)
      apply Scanner.reads_orElse_right
      · simp [Scanner.mapSome, numbered, hhigh, character?_of_surrogates hc]
      · exact reads_paired_iff.mpr
          ⟨_, _, _, reads_numbered_iff.mpr ⟨_, _, _, _, rfl, hhigh⟩,
            reads_numbered_iff.mpr ⟨_, _, _, _, rfl, hlow⟩, hc⟩

theorem head?_of_character {u s : List Char} {c : Char} (h : Character u c) :
    (u ++ s).head? ≠ some '"' := by
  cases h with
  | plain hquote _ _ =>
      simpa using hquote
  | letter | number | surrogates =>
      simp

theorem reads_characters_iff {s cs rest : List Char} :
    Scanner.Reads characters s cs rest ↔ (s = '"' :: rest ∧ cs = []) ∨
      (s.head? ≠ some '"' ∧ ∃ c mid cs', character.Reads s c mid ∧
        Scanner.Reads characters mid cs' rest ∧ cs = c :: cs') := by
  cases hmark : Scanner.symbol '"' s with
  | some q =>
      rcases q with ⟨_, r⟩
      have hs : s = '"' :: r.val := Scanner.reads_symbol_iff.mp (Scanner.reads_of_eq_some hmark)
      have hread : characters s = some ([], r) := by
        rw [characters, hmark]
      constructor
      · intro h
        rcases h with ⟨hlt, h⟩
        cases hread.symm.trans h
        exact Or.inl ⟨hs, rfl⟩
      · intro h
        rcases h with ⟨heq, rfl⟩ | ⟨hhead, _⟩
        · have hrest : r.val = rest := List.tail_eq_of_cons_eq (hs.symm.trans heq)
          exact hrest ▸ Scanner.reads_of_eq_some hread
        · rw [hs] at hhead
          exact absurd rfl hhead
  | none =>
      have hhead : s.head? ≠ some '"' := Scanner.symbol_eq_none_iff.mp hmark
      constructor
      · intro h
        rcases h with ⟨hlt, h⟩
        rw [characters, hmark] at h
        cases hchar : character s with
        | none =>
            simp [hchar] at h
        | some q =>
            rcases q with ⟨c, r⟩
            simp only [hchar] at h
            rcases Option.map_eq_some_iff.mp h with ⟨⟨cs', t⟩, hmore, heq⟩
            cases heq
            exact Or.inr ⟨hhead, c, r.val, cs', Scanner.reads_of_eq_some hchar,
              Scanner.reads_of_eq_some hmore, rfl⟩
      · intro h
        rcases h with ⟨heq, _⟩ | ⟨_, c, mid, cs', ⟨hlt, hchar⟩, ⟨hlt', hmore⟩, rfl⟩
        · rw [heq] at hhead
          exact absurd rfl hhead
        · refine ⟨Nat.lt_trans hlt' hlt, ?_⟩
          rw [characters, hmark]
          simp [hchar, hmore, Shorter.trans]

theorem sound_characters : Scanner.Sound characters Characters := by
  -- What follows the first character is shorter than the whole.
  intro s
  induction hn : s.length using Nat.strongRecOn generalizing s with
  | ind n ih =>
      intro cs rest h
      rcases reads_characters_iff.mp h with ⟨hs, rfl⟩ | ⟨_, c, mid, cs', hchar, hmore, rfl⟩
      · exact ⟨['"'], hs, Characters.nil⟩
      · rcases sound_character s c mid hchar with ⟨u, hs, hu⟩
        rcases hchar with ⟨hlt, _⟩
        rcases ih mid.length (hn ▸ hlt) mid rfl cs' rest hmore with ⟨w, hmid, hw⟩
        refine ⟨u ++ w, ?_, Characters.cons hu hw⟩
        rw [hs, hmid, List.append_assoc]

theorem complete_characters : Scanner.Complete characters Characters (fun _ => True) := by
  intro ts cs rest h _
  induction h with
  | nil =>
      exact reads_characters_iff.mpr (Or.inl ⟨rfl, rfl⟩)
  | @cons u c w cs hu hw ih =>
      rw [List.append_assoc]
      exact reads_characters_iff.mpr (Or.inr ⟨head?_of_character hu, c, w ++ rest, cs,
        complete_character u c (w ++ rest) hu trivial, ih, rfl⟩)

theorem sound_string : Scanner.Sound string Literal := by
  apply Scanner.sound_map
  apply Scanner.sound_precededBy_symbol
  exact sound_characters.imp fun _ _ => Literal.marks

theorem complete_string : Scanner.Complete string Literal (fun _ => True) := by
  intro ts t rest h _
  cases h with
  | marks hw =>
      apply Scanner.reads_map_iff.mpr
      exact ⟨_, Scanner.reads_precededBy_symbol_iff.mpr
        ⟨_, rfl, complete_characters _ _ rest hw trivial⟩, rfl⟩

theorem sound_natural : Scanner.Sound natural Natural := by
  intro s n rest h
  rcases h with ⟨hlt, h⟩
  cases s with
  | nil =>
      cases h
  | cons c s =>
      rw [natural] at h
      split_ifs at h with hfirst
      cases h
      refine ⟨c :: s.takeWhile Char.isDigit, ?_, Natural.digits ?_ hfirst.2⟩
      · rw [List.cons_append, List.takeWhile_append_dropWhile]
      · intro d hd
        rcases List.mem_cons.mp hd with rfl | hd
        · exact hfirst.1
        · exact List.mem_takeWhile_imp hd

theorem complete_natural : Scanner.Complete natural Natural (Avoids Char.isDigit) := by
  intro ts n rest h hrest
  cases h with
  | @digits c w hdigits hzero =>
      have hw : ∀ d ∈ w, d.isDigit = true := fun d hd => hdigits d (List.mem_cons_of_mem c hd)
      rcases Scanner.takeWhile_append_of_avoids hw hrest with ⟨htake, hdrop⟩
      have hlt : rest.length < (c :: (w ++ rest)).length := by
        simp only [List.length_cons, List.length_append]
        omega
      refine ⟨hlt, ?_⟩
      simp [natural, htake, hdrop, hdigits c List.mem_cons_self]
      exact hzero

theorem natural_eq_none {c : Char} (h : c.isDigit = false) (s : List Char) :
    natural (c :: s) = none := by
  simp [natural, h]

theorem sound_number : Scanner.Sound number Number := by
  apply Scanner.sound_orElse
  · apply Scanner.sound_map
    exact sound_natural.imp fun _ _ => Number.plain
  · apply Scanner.sound_map
    apply Scanner.sound_precededBy_symbol
    exact sound_natural.imp fun _ _ => Number.negative

theorem complete_number : Scanner.Complete number Number (Avoids Char.isDigit) := by
  intro ts n rest h hrest
  cases h with
  | plain hw =>
      apply Scanner.reads_orElse_left
      exact Scanner.reads_map_iff.mpr ⟨_, complete_natural _ _ rest hw hrest, rfl⟩
  | negative hw =>
      apply Scanner.reads_orElse_right
      · rw [List.cons_append, Scanner.map, natural_eq_none rfl]
        rfl
      · apply Scanner.reads_map_iff.mpr
        exact ⟨_, Scanner.reads_precededBy_symbol_iff.mpr
          ⟨_, rfl, complete_natural _ _ rest hw hrest⟩, rfl⟩

theorem number_eq_none {c : Char} (hsign : c ≠ '-') (hdigit : c.isDigit = false) (s : List Char) :
    number (c :: s) = none := by
  have hmark : Scanner.symbol '-' (c :: s) = none := Scanner.symbol_eq_none_iff.mpr (by simpa)
  simp [number, Scanner.orElse, Scanner.map, natural_eq_none hdigit, Scanner.precededBy,
    Scanner.andThen, hmark]

theorem sound_word : Scanner.Sound word Word := by
  intro s v rest h
  rcases h with ⟨hlt, h⟩
  unfold word at h
  split at h
  · cases h
    exact ⟨_, rfl, Word.null⟩
  · cases h
    exact ⟨_, rfl, Word.true⟩
  · cases h
    exact ⟨_, rfl, Word.false⟩
  · cases h

theorem complete_word : Scanner.Complete word Word (fun _ => True) := by
  intro ts v rest h _
  cases h with
  | null | true | false =>
      refine ⟨?_, rfl⟩
      simp only [List.length_append, List.length_cons, List.length_nil]
      omega

end Json
end GossipGames
