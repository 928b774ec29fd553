import Hashlang.Proofs.Token.LongestMatch
import Hashlang.Proofs.Token.Spacing

namespace Hashlang

instance (s : Span) (i : Nat) : Decidable (s.Covers i) := inferInstanceAs (Decidable (_ ∧ _))

/-- The text from index `n` on with a blank in place of every character in one of the regions. -/
def blankFrom (regions : List Span) : (n : Nat) → List Char → List Char
  | _, [] => []
  | n, c :: rest => (if ∃ s ∈ regions, s.Covers n then ' ' else c) :: blankFrom regions (n + 1) rest

def blanked (regions : List Span) (source : String) : String :=
  .ofList (blankFrom regions 0 source.toList)

section

variable (regions : List Span)

theorem blankFrom_append (n : Nat) (used rest : List Char) :
    blankFrom regions n (used ++ rest) =
      blankFrom regions n used ++ blankFrom regions (n + used.length) rest := by
  induction used generalizing n with
  | nil => rfl
  | cons c used ih => rw [List.cons_append, blankFrom, ih, add_length_cons, blankFrom, List.cons_append]

theorem length_blankFrom (n : Nat) (text : List Char) : (blankFrom regions n text).length = text.length := by
  induction text generalizing n with
  | nil => rfl
  | cons c text ih => rw [blankFrom, List.length_cons, List.length_cons, ih]

variable {regions}

theorem blankFrom_free {n : Nat} {text : List Char}
    (free : ∀ i, n ≤ i → i < n + text.length → ∀ s ∈ regions, ¬ s.Covers i) :
    blankFrom regions n text = text := by
  induction text generalizing n with
  | nil => rfl
  | cons c text ih =>
    rw [add_length_cons] at free
    have here : ¬ ∃ s ∈ regions, s.Covers n := by
      rintro ⟨s, member, covers⟩
      exact free n (Nat.le_refl _) (by omega) s member covers
    rw [blankFrom, if_neg here, ih fun i lower upper => free i (by omega) upper]

theorem blankFrom_covered {s : Span} (member : s ∈ regions) {n : Nat} {text : List Char}
    (covered : ∀ i, n ≤ i → i < n + text.length → s.Covers i) :
    ∀ c ∈ blankFrom regions n text, Lexeme.isBlank c := by
  induction text generalizing n with
  | nil => exact fun c inside => absurd inside List.not_mem_nil
  | cons c text ih =>
    rw [add_length_cons] at covered
    have here : ∃ s ∈ regions, s.Covers n := ⟨s, member, covered n (Nat.le_refl _) (by omega)⟩
    rw [blankFrom, if_pos here]
    exact List.forall_mem_cons.mpr ⟨rfl, ih fun i lower upper => covered i (by omega) upper⟩

end

namespace Scan

open Lexeme

theorem Tiles.offset_le {n : Nat} {text : List Char} {tokens : List Token} (tiles : Tiles n text tokens) :
    ∀ t ∈ tokens, n ≤ t.span.offset := by
  induction tiles with
  | done => exact List.forall_mem_singleton.mpr (Nat.le_refl _)
  | blank _ _ ih => exact fun t member => Nat.le_of_succ_le (ih t member)
  | piece _ _ ih =>
    exact List.forall_mem_cons.mpr
      ⟨Nat.le_refl _, fun t member => Nat.le_trans (Nat.le_add_right _ _) (ih t member)⟩

theorem Tiles.uncovered {n : Nat} {c : Char} {text : List Char} {tokens : List Token} (blank : isBlank c)
    (tiles : Tiles n (c :: text) tokens) : ∀ t ∈ tokens, ¬ t.span.Covers n := by
  generalize whole : c :: text = source at tiles
  cases tiles with
  | done => cases whole
  | blank _ tiles =>
    intro t member covers
    have behind := tiles.offset_le t member
    exact absurd covers.1 (by omega)
  | @piece _ _ _ used rest _ piece =>
    cases used with
    | nil => exact absurd piece.nonempty (Nat.lt_irrefl 0)
    | cons d used =>
      obtain ⟨rfl, -⟩ := List.cons.inj whole
      exact absurd blank (by rw [piece.not_blank]; decide)

/-- From index `n` on, nothing but the chosen ones among these tokens is hidden. -/
def Confined (chosen : List Token) (n : Nat) (tokens : List Token) : Prop :=
  ∀ i, n ≤ i → ∀ s ∈ chosen.map Token.span, s.Covers i → ∃ t ∈ tokens, t ∈ chosen ∧ t.span.Covers i

variable {chosen : List Token} {n : Nat} {text : List Char} {tokens : List Token}

theorem Confined.mono {m : Nat} (confined : Confined chosen n tokens) (later : n ≤ m) :
    Confined chosen m tokens :=
  fun i lower => confined i (Nat.le_trans later lower)

theorem Confined.tail {t : Token} (confined : Confined chosen n (t :: tokens)) :
    Confined chosen (max n t.span.stop) tokens := by
  intro i lower s member covers
  obtain ⟨u, inTokens, inChosen, here⟩ := confined i (by omega) s member covers
  rcases List.mem_cons.mp inTokens with rfl | inTokens
  · exact absurd here.2 (by omega)
  · exact ⟨u, inTokens, inChosen, here⟩

/-- Behind a token that stays, blanking changes nothing that could change the token. -/
theorem replaces_blankFrom (tiles : Tiles n text tokens) (confined : Confined chosen n tokens) :
    Replaces (blankFrom (chosen.map Token.span) n text) text := by
  cases text with
  | nil => exact ⟨fun d first => absurd first (by simp [blankFrom]), fun line => line⟩
  | cons c text =>
    rw [blankFrom]
    split
    case isFalse => exact ⟨fun d first => .inl first, fun line => line⟩
    case isTrue hidden =>
      obtain ⟨s, member, covers⟩ := hidden
      refine ⟨fun d first => ?_, fun line => ?_⟩
      · cases first
        exact .inr rfl
      · -- A line break is blank, so it is in no token and stays.
        obtain ⟨t, inTokens, -, here⟩ := confined n (Nat.le_refl _) s member covers
        have blank : isBlank c := by
          rw [line c rfl]
          rfl
        exact absurd here (tiles.uncovered blank t inTokens)

theorem Piece.legal_iff {kind : Token.Kind} {value used rest : List Char}
    (piece : Piece kind value used rest) : Legal (used ++ rest) ↔ kind ≠ .illegal := by
  cases piece with
  | lexeme longest => exact ⟨fun _ => longest.spelled.2.1, fun _ => .lexeme longest⟩
  | illegal strays present =>
    exact ⟨fun legal => absurd (legal.not_strays strays) present, fun other => absurd rfl other⟩

theorem Legal.of_blanks {blanks rest : List Char} (blank : ∀ c ∈ blanks, isBlank c)
    (present : 0 < blanks.length) : Legal (blanks ++ rest) := by
  obtain ⟨c, others, rfl⟩ := List.exists_cons_of_length_pos present
  exact .blank (blank c List.mem_cons_self)

theorem Confined.unchanged {t : Token} {used : List Char} (confined : Confined chosen n (t :: tokens))
    (other : t ∉ chosen) (behind : ∀ u ∈ tokens, n + used.length ≤ u.span.offset) :
    blankFrom (chosen.map Token.span) n used = used := by
  refine blankFrom_free fun i lower upper s inside covers => ?_
  obtain ⟨u, inTokens, inChosen, here⟩ := confined i lower s inside covers
  rcases List.mem_cons.mp inTokens with rfl | inTokens
  · exact other inChosen
  · have start := behind u inTokens
    exact absurd here.1 (by omega)

theorem Piece.in_front_of_blanked {kind : Token.Kind} {value used : List Char}
    (piece : Piece kind value used text) (tiles : Tiles n text tokens)
    (confined : Confined chosen n tokens)
    (legal : Legal text → Legal (blankFrom (chosen.map Token.span) n text)) :
    Piece kind value used (blankFrom (chosen.map Token.span) n text) := by
  refine piece.replace (replaces_blankFrom tiles confined) (fun illegal => ?_) fun illegal last => ?_
  · subst illegal
    exact legal piece.strays.legal
  · rcases piece.spelled with ⟨-, closed⟩ | ⟨-, rfl, -⟩
    · exact absurd ⟨illegal, last⟩ closed
    · rfl

theorem Tiles.blanked (noise : ∀ t ∈ chosen, t.kind.isNoise) (tiles : Tiles n text tokens)
    (confined : Confined chosen n tokens) :
    Tiles n (blankFrom (chosen.map Token.span) n text) (tokens.filter fun t => t ∉ chosen) ∧
      (Legal text → Legal (blankFrom (chosen.map Token.span) n text)) := by
  -- Illegal text stays a token because what follows it stays legal, so both are proved together.
  induction tiles with
  | @done n =>
    have stays : Token.fixed .endOfFile ⟨n, 0⟩ ∉ chosen := by
      intro member
      exact absurd (noise _ member) Bool.false_ne_true
    rw [List.filter_cons_of_pos (by simpa using stays)]
    exact ⟨.done, id⟩
  | @blank n c rest tokens blank _ ih =>
    have still : isBlank (if ∃ s ∈ chosen.map Token.span, s.Covers n then ' ' else c) := by
      split
      · rfl
      · exact blank
    exact ⟨.blank still (ih (confined.mono (Nat.le_succ n))).1, fun _ => .blank still⟩
  | @piece n kind value used rest tokens piece tiles ih =>
    have later : Confined chosen (n + used.length) tokens := confined.tail.mono (by simp [Span.stop])
    obtain ⟨behind, legal⟩ := ih later
    have length := length_blankFrom (chosen.map Token.span) n used
    rw [blankFrom_append]
    by_cases member : (⟨kind, .ofList value, ⟨n, used.length⟩⟩ : Token) ∈ chosen
    · rw [List.filter_cons_of_neg (by simpa using member)]
      have blanks : ∀ c ∈ blankFrom (chosen.map Token.span) n used, isBlank c :=
        blankFrom_covered (List.mem_map_of_mem member) fun i lower upper => ⟨lower, upper⟩
      constructor
      · apply Tiles.blanks blanks
        rw [length]
        exact behind
      · intro _
        apply Legal.of_blanks blanks
        rw [length]
        exact piece.nonempty
    · rw [List.filter_cons_of_pos (by simpa using member), confined.unchanged member tiles.offset_le]
      have stays := piece.in_front_of_blanked tiles later legal
      exact ⟨.piece stays behind, fun legal => stays.legal_iff.mpr (piece.legal_iff.mp legal)⟩

end Scan

open Scan in
theorem scan_blanked {source : String} {chosen : List Token} (noise : ∀ t ∈ chosen, t.kind.isNoise)
    (among : ∀ t ∈ chosen, t ∈ scan source) :
    scan (blanked (chosen.map Token.span) source) = (scan source).filter fun t => t ∉ chosen := by
  have confined : Confined chosen 0 (scan source) := by
    intro i _ s member covers
    obtain ⟨t, inChosen, rfl⟩ := List.mem_map.mp member
    exact ⟨t, among t inChosen, inChosen, covers⟩
  apply scan_of_tiles
  rw [blanked, String.toList_ofList]
  exact ((tiles_scan source).blanked noise confined).1

end Hashlang
