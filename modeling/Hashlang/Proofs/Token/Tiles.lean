import Hashlang.Proofs.Token.Reading
import Hashlang.Token.Scan

namespace Hashlang

namespace Lexeme

theorem Longest.unique {c : Char} {used used' rest rest' : List Char} {lexeme lexeme' : Lexeme}
    (first : Longest c used rest lexeme) (second : Longest c used' rest' lexeme')
    (same : used ++ rest = used' ++ rest') : used = used' ∧ rest = rest' ∧ lexeme = lexeme' := by
  have shown : Tape.Faithful.Shows (Cursor.ofList (used ++ rest)) 0 (used ++ rest) := ⟨rfl, rfl⟩
  obtain ⟨k, taken, atRest, -⟩ := read_longest first shown
  rw [same] at shown
  obtain ⟨k', taken', atRest', -⟩ := read_longest second shown
  rw [← same, taken] at taken'
  obtain ⟨rfl, rfl⟩ := Prod.mk.inj taken'
  have lengths : used.length = used'.length := by omega
  obtain ⟨rfl, rfl⟩ := List.append_inj same lengths
  exact ⟨rfl, rfl, rfl⟩

theorem Longest.not_blank {c : Char} {used rest : List Char} {lexeme : Lexeme}
    (longest : Longest c used rest lexeme) : isBlank c = false := by
  cases longest with
  | bracket member =>
    have : ∀ pair ∈ brackets, isBlank pair.1 = false := by decide
    exact this _ member
  | number number =>
    have notOpener := isNumber_cons_iff.mp number
    obtain ⟨-, -, -, -, -, digit | ⟨rfl, -⟩⟩ := notOpener
    · have name := isNameChar_of_start (isNameStart_of_digit digit)
      simp only [isNameChar, Bool.and_eq_true, Bool.not_eq_true'] at name
      exact name.1
    · decide
  | identifier identifier =>
    cases identifier with
    | plain start =>
      have name := isNameChar_of_start start
      simp only [isNameChar, Bool.and_eq_true, Bool.not_eq_true'] at name
      exact name.1
    | quoted => decide
  | stray member =>
    have noBlank : ∀ d ∈ strayChars, isBlank d = false := forall_mem_of_all (by decide)
    exact noBlank _ member
  | _ => decide

end Lexeme

namespace Scan

open Lexeme Tape.Faithful

inductive Legal : List Char → Prop where
  | nil : Legal []
  | blank {c : Char} {rest : List Char} : isBlank c → Legal (c :: rest)
  | lexeme {c : Char} {used rest : List Char} {kind : Token.Kind} {value : List Char} :
      Longest c used rest (.token kind value) → Legal (c :: (used ++ rest))

inductive Strays : (text used rest : List Char) → Prop where
  | stop {rest : List Char} : Legal rest → Strays [] [] rest
  | more {c : Char} {piece shown text used rest : List Char} :
      Longest c piece (used ++ rest) (.stray shown) → Strays text used rest →
      Strays (shown ++ text) (c :: (piece ++ used)) rest

/-- In front of `rest`, the text `used` makes up one token of the given kind and value. -/
inductive Piece : Token.Kind → (value used rest : List Char) → Prop where
  | lexeme {c : Char} {used rest : List Char} {kind : Token.Kind} {value : List Char} :
      Longest c used rest (.token kind value) → Piece kind value (c :: used) rest
  | illegal {text used rest : List Char} : Strays text used rest → used ≠ [] →
      Piece .illegal text used rest

/-- The tokens of the given text, which begins at index `n`. -/
inductive Tiles : Nat → List Char → List Token → Prop where
  | done {n : Nat} : Tiles n [] [.fixed .endOfFile { offset := n }]
  | blank {n : Nat} {c : Char} {rest : List Char} {tokens : List Token} : isBlank c →
      Tiles (n + 1) rest tokens → Tiles n (c :: rest) tokens
  | piece {n : Nat} {kind : Token.Kind} {value used rest : List Char} {tokens : List Token} :
      Piece kind value used rest → Tiles (n + used.length) rest tokens →
      Tiles n (used ++ rest) (⟨kind, .ofList value, ⟨n, used.length⟩⟩ :: tokens)

theorem Piece.of_number {text rest : List Char} (number : IsNumber text) (stop : NumberEnds text rest) :
    Piece .number text text rest := by
  obtain ⟨c, used, rfl⟩ : ∃ c used, text = c :: used := by
    cases number with
    | unsigned present => exact List.exists_cons_of_ne_nil (by simp [present])
    | negative => exact ⟨_, _, rfl⟩
  exact .lexeme (.number number stop)

theorem Piece.of_identifier {text rest : List Char} (identifier : IsIdentifier text)
    (stop : NameEnds rest) : Piece .identifier text text rest := by
  obtain ⟨c, used, rfl⟩ : ∃ c used, text = c :: used := by
    cases identifier <;> exact ⟨_, _, rfl⟩
  exact .lexeme (.identifier identifier stop)

theorem Strays.run {text used rest : List Char} (strays : Strays text used rest) :
    IllegalRun text used rest := by
  induction strays with
  | stop => exact .plain .nil (by simp)
  | @more c piece said text used rest longest strays run =>
    generalize whole : used ++ rest = after at longest
    cases longest with
    | unterminated free =>
      obtain ⟨rfl, rfl⟩ := List.append_eq_nil_iff.mp whole
      cases strays
      simpa using IllegalRun.unclosed .nil free
    | hash stop => exact run.cons (.inl ⟨rfl, whole ▸ stop⟩)
    | stray member => exact run.cons (.inr member)

theorem Tiles.header {name text : List Char} {tokens : List Token} (identifier : IsIdentifier name)
    (tiles : Tiles (6 + name.length + 1) text tokens) :
    Tiles 0 ("#lang ".toList ++ (name ++ '\n' :: text))
      (⟨.directive, "#lang", ⟨0, 5⟩⟩ :: ⟨.identifier, .ofList name, ⟨6, name.length⟩⟩ :: tokens) := by
  have line : Tiles (6 + name.length) ('\n' :: text) tokens := .blank rfl tiles
  have named : Piece .identifier name name ('\n' :: text) :=
    .of_identifier identifier fun c first => by cases first; rfl
  have lang : Piece .directive ['#', 'l', 'a', 'n', 'g'] ['#', 'l', 'a', 'n', 'g']
      (' ' :: (name ++ '\n' :: text)) :=
    .lexeme (.directive (by decide) (forall_mem_of_all (by decide)) fun c first => by cases first; rfl)
  exact .piece lang (.blank rfl (.piece named line))

theorem exists_strays (source : List Char) :
    ∃ text used rest, source = used ++ rest ∧ Strays text used rest := by
  cases source with
  | nil => exact ⟨[], [], [], rfl, .stop .nil⟩
  | cons c source =>
    cases blank : isBlank c with
    | true => exact ⟨[], [], c :: source, rfl, .stop (.blank blank)⟩
    | false =>
      obtain ⟨piece, rest, lexeme, rfl, longest⟩ := exists_longest blank source
      cases lexeme with
      | token kind value => exact ⟨[], [], _, rfl, .stop (.lexeme longest)⟩
      | stray shown =>
        obtain ⟨text, used, rest, rfl, strays⟩ := exists_strays rest
        exact ⟨shown ++ text, c :: (piece ++ used), rest, by simp, .more longest strays⟩
termination_by source.length

theorem exists_tiles (n : Nat) (source : List Char) : ∃ tokens, Tiles n source tokens := by
  cases source with
  | nil => exact ⟨_, .done⟩
  | cons c source =>
    cases blank : isBlank c with
    | true =>
      obtain ⟨tokens, tiles⟩ := exists_tiles (n + 1) source
      exact ⟨tokens, .blank blank tiles⟩
    | false =>
      obtain ⟨piece, rest, lexeme, rfl, longest⟩ := exists_longest blank source
      cases lexeme with
      | token kind value =>
        obtain ⟨tokens, tiles⟩ := exists_tiles (n + (c :: piece).length) rest
        exact ⟨_, .piece (.lexeme longest) tiles⟩
      | stray shown =>
        obtain ⟨text, used, rest, rfl, strays⟩ := exists_strays rest
        obtain ⟨tokens, tiles⟩ := exists_tiles (n + (c :: (piece ++ used)).length) rest
        have cut := Tiles.piece (.illegal (.more longest strays) (List.cons_ne_nil _ _)) tiles
        rw [List.cons_append, List.append_assoc] at cut
        exact ⟨_, cut⟩
termination_by source.length

variable {κ : Type} [Tape κ Char] [Tape.Faithful κ] {k : κ} {n fuel : Nat} {source : List Char}

theorem span_behind (n : Nat) (c : Char) (used : List Char) :
    Span.ofBounds n (n + 1 + used.length) = ⟨n, (c :: used).length⟩ := by
  simp only [Span.ofBounds, List.length_cons, Span.mk.injEq, true_and]
  omega

theorem scanFrom_blank {c : Char} {rest : List Char} (pending : Option Stray) (blank : isBlank c)
    (shown : Shows k n (c :: rest)) :
    ∃ k', Shows k' (n + 1) rest ∧
      scanFrom (fuel + 1) k pending =
        (Stray.flush pending ++ (scanFrom fuel k' none).1, (scanFrom fuel k' none).2) := by
  obtain ⟨k', taken, shown, -⟩ := read_cons shown
  exact ⟨k', shown, by rw [scanFrom, taken]; simp only [blank, if_true]⟩

theorem scanFrom_lexeme {c : Char} {used rest value : List Char} {kind : Token.Kind}
    (pending : Option Stray) (longest : Longest c used rest (.token kind value))
    (shown : Shows k n (c :: (used ++ rest))) :
    ∃ k', Shows k' (n + (c :: used).length) rest ∧
      scanFrom (fuel + 1) k pending =
        (Stray.flush pending ++
          ⟨kind, .ofList value, ⟨n, (c :: used).length⟩⟩ :: (scanFrom fuel k' none).1,
          (scanFrom fuel k' none).2) := by
  have start := position_eq shown
  obtain ⟨k₁, taken, shown, -⟩ := read_cons shown
  obtain ⟨k₂, found, shown⟩ := read_longest longest shown
  have stop := position_eq shown
  refine ⟨k₂, by rwa [add_length_cons], ?_⟩
  rw [scanFrom, taken]
  simp only [longest.not_blank, Bool.false_eq_true, if_false, found, start, stop, span_behind n c used]

theorem scanFrom_stray {c : Char} {piece rest shown : List Char} (pending : Option Stray)
    (longest : Longest c piece rest (.stray shown)) (atText : Shows k n (c :: (piece ++ rest))) :
    ∃ k', Shows k' (n + (c :: piece).length) rest ∧
      scanFrom (fuel + 1) k pending =
        scanFrom fuel k' (some (Stray.extend pending shown n (n + (c :: piece).length))) := by
  have start := position_eq atText
  obtain ⟨k₁, taken, atPiece, -⟩ := read_cons atText
  obtain ⟨k₂, found, atRest⟩ := read_longest longest atPiece
  rw [← add_length_cons n c piece] at atRest
  have stop := position_eq atRest
  refine ⟨k₂, atRest, ?_⟩
  rw [scanFrom, taken]
  simp only [longest.not_blank, Bool.false_eq_true, if_false, found, start, stop]

theorem scanFrom_legal (stray : Stray) (legal : Legal source) (shown : Shows k n source) :
    scanFrom (fuel + 1) k (some stray) =
      (stray.token :: (scanFrom (fuel + 1) k none).1, (scanFrom (fuel + 1) k none).2) := by
  cases legal with
  | nil =>
    obtain ⟨k', taken, -⟩ := read_nil shown
    rw [scanFrom, scanFrom, taken]
    rfl
  | blank blank =>
    obtain ⟨k', taken, -⟩ := read_cons shown
    rw [scanFrom, scanFrom, taken]
    simp only [blank, if_true]
    rfl
  | lexeme longest =>
    obtain ⟨k₁, taken, atUsed, -⟩ := read_cons shown
    obtain ⟨k₂, found, -⟩ := read_longest longest atUsed
    rw [scanFrom, scanFrom, taken]
    simp only [longest.not_blank, Bool.false_eq_true, if_false, found]
    rfl

theorem scanFrom_strays {text used rest : List Char} (strays : Strays text used rest) (stray : Stray)
    (shown : Shows k stray.stop (used ++ rest)) (enough : (used ++ rest).length < fuel) :
    ∃ k' fuel', Shows k' (stray.stop + used.length) rest ∧ rest.length ≤ fuel' ∧
      scanFrom fuel k (some stray) =
        (Stray.token ⟨stray.text ++ text, stray.start, stray.stop + used.length⟩ ::
          (scanFrom (fuel' + 1) k' none).1, (scanFrom (fuel' + 1) k' none).2) := by
  -- The pending text and its span grow by one piece, and nothing is emitted before the run ends.
  induction strays generalizing k fuel stray with
  | stop legal =>
    obtain ⟨fuel, rfl⟩ := Nat.exists_eq_add_one_of_ne_zero (Nat.ne_zero_of_lt enough)
    refine ⟨k, fuel, shown, Nat.le_of_lt_succ enough, ?_⟩
    rw [scanFrom_legal stray legal shown, List.append_nil]
    rfl
  | @more c piece said text used rest longest strays ih =>
    obtain ⟨fuel, rfl⟩ := Nat.exists_eq_add_one_of_ne_zero (Nat.ne_zero_of_lt enough)
    rw [List.cons_append, List.append_assoc] at shown enough
    obtain ⟨k₁, atUsed, step⟩ := scanFrom_stray (some stray) longest shown
    have less : (used ++ rest).length < fuel := by
      simp only [List.length_cons, List.length_append] at enough ⊢
      omega
    obtain ⟨k₂, fuel₂, atRest, enough, run⟩ :=
      ih ⟨stray.text ++ said, stray.start, stray.stop + (c :: piece).length⟩ atUsed less
    have length : stray.stop + (c :: piece).length + used.length =
        stray.stop + (c :: (piece ++ used)).length := by
      simp only [List.length_cons, List.length_append]
      omega
    rw [length] at atRest run
    refine ⟨k₂, fuel₂, atRest, enough, ?_⟩
    rw [step, ← List.append_assoc]
    exact run

theorem scanFrom_illegal {text used rest : List Char} (strays : Strays text used rest)
    (present : used ≠ []) (shown : Shows k n (used ++ rest)) (enough : (used ++ rest).length < fuel + 1) :
    ∃ k' fuel', Shows k' (n + used.length) rest ∧ rest.length ≤ fuel' ∧
      scanFrom (fuel + 1) k none =
        (⟨.illegal, .ofList text, ⟨n, used.length⟩⟩ :: (scanFrom (fuel' + 1) k' none).1,
          (scanFrom (fuel' + 1) k' none).2) := by
  cases strays with
  | stop => exact absurd rfl present
  | @more c piece said text used rest longest strays =>
    rw [List.cons_append, List.append_assoc] at shown enough
    obtain ⟨k₁, atUsed, step⟩ := scanFrom_stray none longest shown
    have less : (used ++ rest).length < fuel := by
      simp only [List.length_append, List.length_cons] at enough ⊢
      omega
    obtain ⟨k₂, fuel₂, atRest, enough, grown⟩ :=
      scanFrom_strays strays ⟨said, n, n + (c :: piece).length⟩ atUsed less
    have length : n + (c :: piece).length + used.length = n + (c :: (piece ++ used)).length := by
      simp only [List.length_cons, List.length_append]
      omega
    rw [length] at atRest grown
    rw [Stray.token, Span.ofBounds, Nat.add_sub_cancel_left] at grown
    exact ⟨k₂, fuel₂, atRest, enough, step.trans grown⟩

theorem scanFrom_tiles {tokens : List Token} (tiles : Tiles n source tokens) (shown : Shows k n source)
    (enough : source.length ≤ fuel) :
    ∃ k', scanFrom (fuel + 1) k none = (tokens, k') ∧ Shows k' (n + source.length) [] := by
  induction tiles generalizing k fuel with
  | done =>
    obtain ⟨k', taken, shown⟩ := read_nil shown
    refine ⟨k', ?_, shown⟩
    rw [scanFrom, taken]
    simp only [position_eq shown]
    rfl
  | blank blank tiles ih =>
    obtain ⟨fuel, rfl⟩ := Nat.exists_eq_add_one_of_ne_zero (Nat.ne_zero_of_lt enough)
    obtain ⟨k₁, shown, step⟩ := scanFrom_blank none blank shown
    obtain ⟨k₂, run, atEnd⟩ := ih shown (Nat.le_of_succ_le_succ enough)
    refine ⟨k₂, by rw [step, run]; rfl, ?_⟩
    rwa [add_length_cons]
  | @piece n kind value used rest tokens piece tiles ih =>
    rw [List.length_append, ← Nat.add_assoc]
    cases piece with
    | @lexeme c used rest kind value longest =>
      obtain ⟨fuel, rfl⟩ := Nat.exists_eq_add_one_of_ne_zero (Nat.ne_zero_of_lt enough)
      obtain ⟨k₁, shown, step⟩ := scanFrom_lexeme none longest shown
      have less : rest.length ≤ fuel := by
        simp only [List.length_append, List.length_cons] at enough
        omega
      obtain ⟨k₂, run, atEnd⟩ := ih shown less
      exact ⟨k₂, by rw [step, run]; rfl, atEnd⟩
    | illegal strays present =>
      obtain ⟨k₁, fuel₁, shown, less, grown⟩ :=
        scanFrom_illegal strays present shown (Nat.lt_succ_of_le enough)
      obtain ⟨k₂, run, atEnd⟩ := ih shown less
      exact ⟨k₂, by rw [grown, run], atEnd⟩

end Scan

open Scan in
theorem scan_of_tiles {source : String} {tokens : List Token} (tiles : Tiles 0 source.toList tokens) :
    scan source = tokens := by
  have shown : Tape.Faithful.Shows (Cursor.ofText source) 0 source.toList := ⟨rfl, rfl⟩
  obtain ⟨k, run, -⟩ := scanFrom_tiles tiles shown (Nat.le_of_eq (Tape.Faithful.remaining_eq shown).symm)
  rw [scan, scanTape, run]

open Scan in
theorem tiles_scan (source : String) : Tiles 0 source.toList (scan source) := by
  obtain ⟨tokens, tiles⟩ := exists_tiles 0 source.toList
  rwa [scan_of_tiles tiles]

end Hashlang
