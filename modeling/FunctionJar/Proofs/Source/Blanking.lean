import FunctionJar.Proofs.Except
import FunctionJar.Proofs.Source.Lexer
import FunctionJar.Source.Bracket

namespace FunctionJar.Source

def Role.shown (r : Role) (c : Char) : Char :=
  if r = .code ∨ r = .quote ∨ c = '\n' then c else ' '

variable {style : Style} {c : Char} {s rest : List Char} {p : Piece} {n : Nat}

/-- Where a piece begins with `c`, all that is taken of what stands behind it is there. -/
structure Within (style : Style) (c : Char) (rest : List Char) : Prop where
  comment : startOf style c rest = .blockComment → 1 ≤ rest.length
  textBlock : startOf style c rest = .textBlock → 2 ≤ rest.length
  piece : ∀ p n, pieceAt style c rest = .ok (p, n) →
    n ≤ rest.length ∧ p.source = c :: rest.take n

theorem exists_of_blockComment (h : startOf style c rest = .blockComment) :
    ∃ after, rest = '*' :: after := by
  unfold startOf at h
  split at h
  · cases h
  · split at h
    · cases h
    · split at h
      · next hstar =>
          obtain ⟨after, rfl⟩ := List.head?_eq_some_iff.mp hstar.2.2
          exact ⟨after, rfl⟩
      · split at h
        · split at h <;> cases h
        · cases h

theorem exists_of_textBlock (h : startOf style c rest = .textBlock) :
    ∃ after, rest = c :: c :: after := by
  unfold startOf at h
  split at h
  · cases h
  · split at h
    · cases h
    · split at h
      · cases h
      · split at h
        · split at h
          · next hquotes =>
              have hsplit := List.take_append_drop 2 rest
              rw [hquotes.1] at hsplit
              exact ⟨rest.drop 2, hsplit.symm⟩
          · cases h
        · cases h

theorem source_pieceAt (h : pieceAt style c rest = .ok (p, n)) :
    n ≤ rest.length ∧ p.source = c :: rest.take n := by
  unfold pieceAt at h
  split at h
  · obtain ⟨rfl, rfl⟩ := Prod.mk.inj (Except.ok.inj h)
    exact ⟨Nat.zero_le _, rfl⟩
  · obtain ⟨rfl, rfl⟩ := Prod.mk.inj (Except.ok.inj h)
    have htaken := List.takeWhile_prefix (l := rest) (· ≠ '\n')
    exact ⟨htaken.length_le, congrArg _ (List.prefix_iff_eq_take.mp htaken)⟩
  · next hstart =>
      obtain ⟨after, rfl⟩ := exists_of_blockComment hstart
      split at h
      · next m hclose =>
          obtain ⟨rfl, rfl⟩ := Prod.mk.inj (Except.ok.inj h)
          obtain ⟨-, hm⟩ := closeComment_bounds hclose
          exact ⟨Nat.succ_le_succ hm, rfl⟩
      · cases h
  · next hstart =>
      obtain ⟨after, rfl⟩ := exists_of_textBlock hstart
      split at h
      · next m hclose =>
          obtain ⟨rfl, rfl⟩ := Prod.mk.inj (Except.ok.inj h)
          obtain ⟨before, behind, rfl, rfl⟩ := closeBlock_found hclose
          refine ⟨by simp, ?_⟩
          simp [Piece.source, List.take_append]
      · cases h
  · split at h
    · next m hclose =>
        obtain ⟨rfl, rfl⟩ := Prod.mk.inj (Except.ok.inj h)
        obtain ⟨before, behind, rfl, rfl⟩ := closeLiteral_found hclose
        refine ⟨by simp, ?_⟩
        simp [Piece.source, List.take_append, List.take_of_length_le]
    · cases h

theorem within (style : Style) (c : Char) (rest : List Char) : Within style c rest where
  comment h := by
    obtain ⟨after, rfl⟩ := exists_of_blockComment h
    simp
  textBlock h := by
    obtain ⟨after, rfl⟩ := exists_of_textBlock h
    simp
  piece _ _ h := source_pieceAt h

theorem piecesFrom_eq (style : Style) (n : Nat) (s : List Char) :
    piecesFrom style n s = pieces style (s.drop n) := by
  induction s generalizing n with
  | nil => cases n <;> rfl
  | cons c rest ih =>
      cases n with
      | zero => rfl
      | succ n => exact ih n

theorem pieces_cons (style : Style) (c : Char) (rest : List Char) :
    pieces style (c :: rest) = match pieceAt style c rest with
      | .error what => ⟨[], some what⟩
      | .ok (piece, n) =>
        ⟨piece :: (pieces style (rest.drop n)).pieces, (pieces style (rest.drop n)).leftOpen⟩ := by
  rw [pieces, piecesFrom]
  cases pieceAt style c rest with
  | error what => rfl
  | ok out =>
      obtain ⟨piece, n⟩ := out
      show Pieces.mk (piece :: (piecesFrom style n rest).pieces) (piecesFrom style n rest).leftOpen = _
      rw [piecesFrom_eq]

theorem roles_pieces (style : Style) (s : List Char) :
    (roles? style s = match (pieces style s).leftOpen with
      | some _ => none
      | none => some ((pieces style s).pieces.flatMap Piece.roles)) ∧
    ((pieces style s).leftOpen = none → (pieces style s).pieces.flatMap Piece.source = s) := by
  -- A piece takes any number of characters, so the induction is on how many there are.
  induction hlength : s.length using Nat.strongRecOn generalizing s with
  | ind k ih =>
      cases s with
      | nil => exact ⟨rfl, fun _ => rfl⟩
      | cons c rest =>
          have hroles : roles? style (c :: rest) = _ := follows style c rest
          rw [hroles, pieces_cons]
          cases hpiece : pieceAt style c rest with
          | error what => exact ⟨rfl, fun h => by cases h⟩
          | ok out =>
              obtain ⟨piece, n⟩ := out
              have hlt : (rest.drop n).length < k := by
                rw [← hlength, List.length_drop, List.length_cons]
                omega
              obtain ⟨hrest, hsource⟩ := ih _ hlt (rest.drop n) rfl
              constructor
              · show (roles? style (rest.drop n)).map (piece.roles ++ ·) = _
                rw [hrest]
                cases (pieces style (rest.drop n)).leftOpen <;> rfl
              · intro hopen
                rw [List.flatMap_cons, hsource hopen, (source_pieceAt hpiece).2, List.cons_append,
                  List.take_append_drop]

theorem length_roles (p : Piece) : p.roles.length = p.source.length := by
  cases p <;> simp [Piece.roles, Piece.source]

theorem blank_eq_replicate (h : '\n' ∉ s) : blank s = List.replicate s.length ' ' := by
  induction s with
  | nil => rfl
  | cons c s ih =>
      rw [List.mem_cons, not_or] at h
      rw [List.length_cons, List.replicate_succ, ← ih h.2, blank, List.map_cons,
        if_neg (Ne.symm h.1)]
      rfl

theorem blanked_eq (p : Piece) : p.blanked = List.zipWith Role.shown p.roles p.source := by
  have hblank : ∀ (r : Role) (text : List Char), r ≠ .code → r ≠ .quote →
      blank text = List.zipWith Role.shown (List.replicate text.length r) text := by
    intro r text hcode hquote
    induction text with
    | nil => rfl
    | cons c text ih =>
        rw [List.length_cons, List.replicate_succ, List.zipWith_cons_cons, ← ih]
        simp only [blank, List.map_cons, Role.shown, hcode, hquote, false_or]
        congr 1
        split
        · next hc => exact hc.symm
        · rfl
  cases p with
  | code c => simp [Piece.blanked, Piece.roles, Piece.source, Role.shown]
  | comment text => exact hblank .comment text (by decide) (by decide)
  | literal quote inner =>
      rw [Piece.blanked, hblank .inside inner (by decide) (by decide), Piece.roles, Piece.source]
      simp only [List.cons_append, List.zipWith_cons_cons]
      rw [List.zipWith_append (by simp)]
      simp [Role.shown]

theorem flatMap_blanked (ps : List Piece) : ps.flatMap Piece.blanked =
    List.zipWith Role.shown (ps.flatMap Piece.roles) (ps.flatMap Piece.source) := by
  induction ps with
  | nil => rfl
  | cons p ps ih =>
      rw [List.flatMap_cons, List.flatMap_cons, List.flatMap_cons, List.zipWith_append (length_roles p),
        ih, blanked_eq]

theorem scan_ok {out : List Char} (h : scan style s = .ok out) :
    (pieces style s).leftOpen = none ∧ out = (pieces style s).pieces.flatMap Piece.blanked := by
  unfold scan at h
  simp only at h
  split at h
  · cases h
  · next hcheck =>
      refine ⟨?_, (Except.ok.inj h).symm⟩
      unfold check at hcheck
      split at hcheck
      · cases hcheck
      · cases hopen : (pieces style s).leftOpen with
        | none => rfl
        | some what =>
            rw [hopen] at hcheck
            cases hcheck

theorem length_flatMap_roles (ps : List Piece) :
    (ps.flatMap Piece.roles).length = (ps.flatMap Piece.source).length := by
  induction ps with
  | nil => rfl
  | cons p ps ih => simp only [List.flatMap_cons, List.length_append, length_roles, ih]

theorem shown_eq_feed_iff (r : Role) (c : Char) : r.shown c = '\n' ↔ c = '\n' := by
  unfold Role.shown
  split
  · exact Iff.rfl
  · next h =>
      simp only [not_or] at h
      exact ⟨fun he => absurd he (by decide), fun he => absurd he h.2.2⟩

/-- A blanked source has each character of code and the quotes of literals where the lexer finds
them, the line feeds in their places and blanks in all others. -/
theorem scan_shows_roles (style : Style) (s : List Char) :
    (∀ c rest, Within style c rest) ∧
    ∀ out, scan style s = .ok out → ∃ roles : List Role, roles? style s = some roles ∧
      roles.length = s.length ∧ out.length = s.length ∧
      (∀ i : Nat, out[i]? = some '\n' ↔ s[i]? = some '\n') ∧
      ∀ (i : Nat) (c : Char), s[i]? = some c → c ≠ '\n' → ∃ r : Role, roles[i]? = some r ∧
        out[i]? = some (if r = .code ∨ r = .quote then c else ' ') := by
  refine ⟨within style, fun out h => ?_⟩
  obtain ⟨hopen, rfl⟩ := scan_ok h
  obtain ⟨hroles, hsource⟩ := roles_pieces style s
  rw [hopen] at hroles
  have hlength := length_flatMap_roles (pieces style s).pieces
  have hshown := flatMap_blanked (pieces style s).pieces
  rw [hsource hopen] at hlength hshown
  generalize (pieces style s).pieces.flatMap Piece.roles = roles at *
  have hplace : ∀ (i : Nat) (c : Char), s[i]? = some c → ∃ r : Role, roles[i]? = some r ∧
      (List.zipWith Role.shown roles s)[i]? = some (r.shown c) := by
    intro i c hc
    have hi : i < roles.length := hlength ▸ (List.getElem?_eq_some_iff.mp hc).1
    exact ⟨roles[i], List.getElem?_eq_getElem hi, by simp [List.getElem?_zipWith, hc, hi]⟩
  rw [hshown]
  refine ⟨roles, hroles, hlength, by simp [hlength], fun i => ?_, fun i c hc hfeed => ?_⟩
  · cases hc : s[i]? with
    | none => simp [List.getElem?_zipWith, hc]
    | some c =>
        obtain ⟨r, -, hr⟩ := hplace i c hc
        rw [hr, Option.some.injEq, Option.some.injEq, shown_eq_feed_iff]
  · obtain ⟨r, hrole, hr⟩ := hplace i c hc
    refine ⟨r, hrole, hr.trans ?_⟩
    simp [Role.shown, hfeed]

/-- A comment with a slash behind its opening star, an escaped quote, an empty literal and a text
block with an escaped quote before the three that close it. -/
def tricky : List Char := "/*/*/('\\'', \"\", \"\"\"(\\\"\"\"\") // )\n".toList

theorem scan_shows_roles_tricky :
    (∀ c rest, Within .curly c rest) ∧
    scan .curly tricky = .ok "     ('  ', \"\", \"       \")     \n".toList ∧
    tricky[19]? = some '(' ∧ ∃ roles : List Role, roles? .curly tricky = some roles ∧
      roles.length = tricky.length ∧ ∃ r : Role, roles[19]? = some r ∧
        some ' ' = some (if r = .code ∨ r = .quote then '(' else ' ') := by
  have hscan : scan .curly tricky = .ok "     ('  ', \"\", \"       \")     \n".toList :=
    ok_of_toOption (by decide +kernel)
  have hparen : tricky[19]? = some '(' := by decide +kernel
  obtain ⟨hwithin, hshown⟩ := scan_shows_roles .curly tricky
  obtain ⟨roles, hroles, hlength, -, -, hplaces⟩ := hshown _ hscan
  obtain ⟨r, hr, hout⟩ := hplaces 19 '(' hparen (by decide)
  have hblank : ("     ('  ', \"\", \"       \")     \n".toList)[19]? = some ' ' := by decide +kernel
  exact ⟨hwithin, hscan, hparen, roles, hroles, hlength, r, hr, hblank.symm.trans hout⟩

end FunctionJar.Source
