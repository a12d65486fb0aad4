import FunctionJar.Source.Piece

namespace FunctionJar.Source

inductive Role
  | code
  | quote
  | comment
  | inside
  deriving DecidableEq, Repr

inductive Mode
  | code
  | slash
  | lineComment
  | blockComment
  | star
  | opened (quote : Char)
  | pair (quote : Char)
  | literal (quote : Char)
  | escape (quote : Char)
  | block (quote : Char) (run : Nat)
  | blockEscape (quote : Char)
  deriving DecidableEq, Repr

def hasBlocks (style : Style) (quote : Char) : Bool := style = .python || quote = '"'

namespace Mode

def start (style : Style) (c : Char) : List Role × Mode :=
  if style = .curly ∧ c = '/' then ([], slash)
  else if style = .python ∧ c = '#' then ([.comment], lineComment)
  else if c = '"' ∨ c = '\'' then ([.quote], opened c)
  else ([.code], code)

/-- The role of a character that was open, and what the next one begins. -/
def closed (style : Style) (r : Role) (c : Char) : List Role × Mode :=
  (r :: (start style c).1, (start style c).2)

def literalStep (quote c : Char) : Option (List Role × Mode) :=
  if c = '\\' then some ([.inside], escape quote)
  else if c = '\n' then none
  else if c = quote then some ([.quote], code)
  else some ([.inside], literal quote)

/-- The roles that `c` settles and the mode behind it. A line feed has no place in a literal. -/
def step (style : Style) (m : Mode) (c : Char) : Option (List Role × Mode) :=
  match m with
  | code => some (start style c)
  | slash =>
    if c = '/' then some ([.comment, .comment], lineComment)
    else if c = '*' then some ([.comment, .comment], blockComment)
    else some (closed style .code c)
  | lineComment => if c = '\n' then some ([.code], code) else some ([.comment], lineComment)
  | blockComment => some ([.comment], if c = '*' then star else blockComment)
  | star =>
    some ([.comment], if c = '/' then code else if c = '*' then star else blockComment)
  | opened q => if c = q ∧ hasBlocks style q then some ([], pair q) else literalStep q c
  | pair q => if c = q then some ([.inside, .inside], block q 0) else some (closed style .quote c)
  | literal q => literalStep q c
  | escape q => some ([.inside], literal q)
  | block q run =>
    if c = q then if run = 2 then some ([.quote], code) else some ([.inside], block q (run + 1))
    else if c = '\\' then some ([.inside], blockEscape q)
    else some ([.inside], block q 0)
  | blockEscape q => some ([.inside], block q 0)

/-- The role that is still open when the source ends, which it must not do within a literal or a
comment between slashes and stars. -/
def finish : Mode → Option (List Role)
  | code | lineComment => some []
  | slash => some [.code]
  | pair _ => some [.quote]
  | _ => none

end Mode

def rolesFrom (style : Style) (m : Mode) : List Char → Option (List Role)
  | [] => m.finish
  | c :: rest => (m.step style c).bind fun p => (rolesFrom style p.2 rest).map (p.1 ++ ·)

def roles? (style : Style) (s : List Char) : Option (List Role) := rolesFrom style .code s

namespace Piece

def source : Piece → List Char
  | code c => [c]
  | comment text => text
  | literal quote inner => quote :: inner ++ [quote]

def roles : Piece → List Role
  | code _ => [.code]
  | comment text => List.replicate text.length .comment
  | literal _ inner => .quote :: List.replicate inner.length .inside ++ [.quote]

end Piece

section Closing

variable {style : Style} {inner last : Role} {o : Option Nat} {q c : Char} {n k : Nat}
  {s rest : List Char}

/-- The roles where `o` says how many characters there are up to the end of what is open. -/
def behind (style : Style) (inner last : Role) (o : Option Nat) (s : List Char) :
    Option (List Role) :=
  o.bind fun n => (rolesFrom style .code (s.drop n)).map
    fun rs => List.replicate (n - 1) inner ++ last :: rs

theorem behind_one : behind style inner last (some 1) (c :: s) =
    (rolesFrom style .code s).map (last :: ·) := by
  simp [behind]

theorem behind_succ (h : ∀ n ∈ o, 1 ≤ n) : behind style inner last (o.map (· + 1)) (c :: s) =
    (behind style inner last o s).map (inner :: ·) := by
  cases o with
  | none => rfl
  | some n =>
      obtain ⟨m, rfl⟩ := Nat.exists_eq_add_one.mpr (h n rfl)
      simp [behind, List.replicate_succ, Function.comp_def]

theorem closeComment_found (h : closeComment s = some n) :
    ∃ before after, s = before ++ '*' :: '/' :: after ∧ n = before.length + 2 := by
  fun_induction closeComment s generalizing n with
  | case1 rest => exact ⟨[], rest, rfl, (Option.some.inj h).symm⟩
  | case2 c rest _ ih =>
      obtain ⟨m, hm, rfl⟩ := Option.map_eq_some_iff.mp h
      obtain ⟨before, after, rfl, rfl⟩ := ih hm
      exact ⟨c :: before, after, rfl, rfl⟩
  | case3 => cases h

theorem closeLiteral_found (h : closeLiteral q s = some n) :
    ∃ before after, s = before ++ q :: after ∧ n = before.length + 1 := by
  fun_induction closeLiteral q s generalizing n with
  | case1 | case2 | case4 => cases h
  | case3 c rest ih =>
      obtain ⟨m, hm, rfl⟩ := Option.map_eq_some_iff.mp h
      obtain ⟨before, after, rfl, rfl⟩ := ih hm
      exact ⟨'\\' :: c :: before, after, rfl, rfl⟩
  | case5 => exact ⟨[], _, rfl, (Option.some.inj h).symm⟩
  | case6 c rest _ _ _ _ ih =>
      obtain ⟨m, hm, rfl⟩ := Option.map_eq_some_iff.mp h
      obtain ⟨before, after, rfl, rfl⟩ := ih hm
      exact ⟨c :: before, after, rfl, rfl⟩

theorem closeBlock_found (h : closeBlock q s = some n) :
    ∃ before after, s = before ++ q :: q :: q :: after ∧ n = before.length + 3 := by
  fun_induction closeBlock q s generalizing n with
  | case1 | case2 => cases h
  | case3 c rest ih =>
      obtain ⟨m, hm, rfl⟩ := Option.map_eq_some_iff.mp h
      obtain ⟨before, after, rfl, rfl⟩ := ih hm
      exact ⟨'\\' :: c :: before, after, rfl, rfl⟩
  | case4 c rest _ _ hquotes =>
      refine ⟨[], (c :: rest).drop 3, ?_, (Option.some.inj h).symm⟩
      rw [← List.take_append_drop 3 (c :: rest), hquotes]
      rfl
  | case5 c rest _ _ _ ih =>
      obtain ⟨m, hm, rfl⟩ := Option.map_eq_some_iff.mp h
      obtain ⟨before, after, rfl, rfl⟩ := ih hm
      exact ⟨c :: before, after, rfl, rfl⟩

theorem closeComment_bounds (h : closeComment s = some n) : 2 ≤ n ∧ n ≤ s.length := by
  obtain ⟨before, after, rfl, rfl⟩ := closeComment_found h
  simp only [List.length_append, List.length_cons]
  omega

theorem closeLiteral_bounds (h : closeLiteral q s = some n) : 1 ≤ n ∧ n ≤ s.length := by
  obtain ⟨before, after, rfl, rfl⟩ := closeLiteral_found h
  simp only [List.length_append, List.length_cons]
  omega

theorem closeBlock_bounds (h : closeBlock q s = some n) : 3 ≤ n ∧ n ≤ s.length := by
  obtain ⟨before, after, rfl, rfl⟩ := closeBlock_found h
  simp only [List.length_append, List.length_cons]
  omega

theorem rolesFrom_cons {m m' : Mode} {rs : List Role} (h : m.step style c = some (rs, m')) :
    rolesFrom style m (c :: s) = (rolesFrom style m' s).map (rs ++ ·) := by
  rw [rolesFrom, h, Option.bind_some]

theorem rolesFrom_closed {m : Mode} {r : Role} (h : m.step style c = some (Mode.closed style r c)) :
    rolesFrom style m (c :: s) = (rolesFrom style .code (c :: s)).map (r :: ·) := by
  rw [rolesFrom_cons h, rolesFrom_cons (m := .code) rfl, Option.map_map]
  rfl

theorem rolesFrom_lineComment (s : List Char) : rolesFrom style .lineComment s =
    (rolesFrom style .code (s.drop (s.takeWhile (· ≠ '\n')).length)).map
      (List.replicate (s.takeWhile (· ≠ '\n')).length .comment ++ ·) := by
  induction s with
  | nil => rfl
  | cons c s ih =>
      by_cases hc : c = '\n'
      · subst hc
        have hstart : Mode.start style '\n' = ([.code], .code) := by cases style <;> rfl
        rw [rolesFrom_cons rfl, List.takeWhile_cons_of_neg (by simp), List.length_nil, List.drop_zero,
          rolesFrom_cons (m := .code) (congrArg some hstart)]
        simp [Function.comp_def]
      · have hstep : Mode.lineComment.step style c = some ([.comment], .lineComment) := by
          simp [Mode.step, hc]
        rw [rolesFrom_cons hstep, ih, List.takeWhile_cons_of_pos (by simpa using hc)]
        simp [List.replicate_succ, Function.comp_def]

/-- How many characters there are up to the end of a comment, behind a star in it. -/
def closeStar (s : List Char) : Option Nat :=
  if s.head? = some '/' then some 1 else closeComment s

theorem closeComment_cons (c : Char) (s : List Char) : closeComment (c :: s) =
    (if c = '*' then closeStar s else closeComment s).map (· + 1) := by
  by_cases hc : c = '*'
  · subst hc
    cases s with
    | nil => rfl
    | cons d s =>
        by_cases hd : d = '/'
        · subst hd
          rfl
        · simp [closeComment, closeStar, hd]
  · rw [if_neg hc, closeComment]
    intro rest he
    exact absurd he hc

theorem one_le_closeStar : ∀ n ∈ closeStar s, 1 ≤ n := by
  intro n hn
  unfold closeStar at hn
  split at hn
  · exact Nat.le_of_eq (Option.some.inj hn)
  · exact Nat.le_of_succ_le (closeComment_bounds hn).1

theorem rolesFrom_blockComment (s : List Char) :
    rolesFrom style .blockComment s = behind style .comment .comment (closeComment s) s ∧
    rolesFrom style .star s = behind style .comment .comment (closeStar s) s := by
  induction s with
  | nil => exact ⟨rfl, rfl⟩
  | cons c s ih =>
      have hone : ∀ n ∈ closeComment s, 1 ≤ n := fun n hn => Nat.le_of_succ_le (closeComment_bounds hn).1
      constructor
      · rw [rolesFrom_cons rfl, closeComment_cons]
        by_cases hc : c = '*'
        · rw [if_pos hc, if_pos hc, ih.2, behind_succ one_le_closeStar]
          rfl
        · rw [if_neg hc, if_neg hc, ih.1, behind_succ hone]
          rfl
      · rw [rolesFrom_cons rfl, closeStar]
        by_cases hslash : c = '/'
        · rw [if_pos hslash, if_pos (by rw [hslash]; rfl), behind_one]
          rfl
        · have hhead : (c :: s).head? ≠ some '/' := by simpa using hslash
          rw [if_neg hslash, if_neg hhead, closeComment_cons]
          by_cases hc : c = '*'
          · rw [if_pos hc, if_pos hc, ih.2, behind_succ one_le_closeStar]
            rfl
          · rw [if_neg hc, if_neg hc, ih.1, behind_succ hone]
            rfl

def closeEscaped (close : List Char → Option Nat) : List Char → Option Nat
  | [] => none
  | _ :: rest => (close rest).map (· + 1)

theorem one_le_closeEscaped {close : List Char → Option Nat} : ∀ n ∈ closeEscaped close s, 1 ≤ n := by
  intro n hn
  cases s with
  | nil => cases hn
  | cons c rest =>
      obtain ⟨m, -, rfl⟩ := Option.map_eq_some_iff.mp hn
      exact Nat.succ_pos m

theorem closeLiteral_cons (q c : Char) (s : List Char) : closeLiteral q (c :: s) =
    if c = '\\' then (closeEscaped (closeLiteral q) s).map (· + 1)
    else if c = '\n' then none
    else if c = q then some 1
    else (closeLiteral q s).map (· + 1) := by
  by_cases hc : c = '\\'
  · subst hc
    cases s with
    | nil => rfl
    | cons d s => simp [closeLiteral, closeEscaped, Function.comp_def]
  · rw [if_neg hc]
    cases s <;> simp [closeLiteral, hc]

theorem rolesFrom_literal (q : Char) (s : List Char) :
    rolesFrom style (.literal q) s = behind style .inside .quote (closeLiteral q s) s ∧
    rolesFrom style (.escape q) s =
      behind style .inside .quote (closeEscaped (closeLiteral q) s) s := by
  induction s with
  | nil => exact ⟨rfl, rfl⟩
  | cons c s ih =>
      have hone : ∀ n ∈ closeLiteral q s, 1 ≤ n := fun n hn => (closeLiteral_bounds hn).1
      constructor
      · rw [rolesFrom, closeLiteral_cons]
        simp only [Mode.step, Mode.literalStep]
        split
        · rw [Option.bind_some, ih.2, behind_succ one_le_closeEscaped]
          rfl
        · split
          · rfl
          · split
            · rw [Option.bind_some, behind_one]
              rfl
            · rw [Option.bind_some, ih.1, behind_succ hone]
              rfl
      · rw [rolesFrom_cons rfl, closeEscaped, ih.1, behind_succ hone]
        rfl

/-- How many characters there are up to the end of a text block, behind quotes in a row. -/
def closeRun (q : Char) (run : Nat) (s : List Char) : Option Nat :=
  if s.take (3 - run) = List.replicate (3 - run) q then some (3 - run) else closeBlock q s

theorem closeBlock_cons (q c : Char) (s : List Char) : closeBlock q (c :: s) =
    if c = '\\' then (closeEscaped (closeBlock q) s).map (· + 1)
    else if (c :: s).take 3 = [q, q, q] then some 3
    else (closeBlock q s).map (· + 1) := by
  by_cases hc : c = '\\'
  · subst hc
    cases s with
    | nil => rfl
    | cons d s => simp [closeBlock, closeEscaped, Function.comp_def]
  · rw [if_neg hc]
    cases s <;> simp [closeBlock, hc]

theorem closeRun_zero (hq : q ≠ '\\') (s : List Char) : closeRun q 0 s = closeBlock q s := by
  unfold closeRun
  split
  · next hquotes =>
      cases s with
      | nil => cases hquotes
      | cons c s =>
          have hc : c = q := (List.cons.inj hquotes).1
          have hthree : (c :: s).take 3 = [q, q, q] := hquotes
          rw [closeBlock_cons, if_neg (hc ▸ hq), if_pos hthree]
  · rfl

theorem one_le_closeRun (hrun : k ≤ 2) : ∀ n ∈ closeRun q k s, 1 ≤ n := by
  intro n hn
  unfold closeRun at hn
  split at hn
  · obtain rfl := Option.some.inj hn
    omega
  · have := (closeBlock_bounds hn).1
    omega

theorem closeRun_quote (hq : q ≠ '\\') (hrun : k < 2) (s : List Char) :
    closeRun q k (q :: s) = (closeRun q (k + 1) s).map (· + 1) := by
  have hthree : 3 - k = 3 - (k + 1) + 1 := by omega
  unfold closeRun
  rw [hthree, List.take_succ_cons, List.replicate_succ]
  by_cases hquotes : s.take (3 - (k + 1)) = List.replicate (3 - (k + 1)) q
  · rw [if_pos (congrArg _ hquotes), if_pos hquotes]
    rfl
  · have hmore : (q :: s).take 3 ≠ [q, q, q] := by
      intro htake
      apply hquotes
      have htwo : s.take 2 = List.replicate 2 q := (List.cons.inj htake).2
      have hle : 3 - (k + 1) ≤ 2 := by omega
      rw [← Nat.min_eq_left hle, ← List.take_take, htwo, List.take_replicate]
    rw [if_neg fun he => hquotes (List.cons.inj he).2, if_neg hquotes, closeBlock_cons, if_neg hq,
      if_neg hmore]

theorem closeRun_other (hc : c ≠ q) (hrun : k ≤ 2) (s : List Char) :
    closeRun q k (c :: s) = closeBlock q (c :: s) := by
  obtain ⟨m, hm⟩ : ∃ m, 3 - k = m + 1 := ⟨2 - k, by omega⟩
  rw [closeRun, hm, List.take_succ_cons, List.replicate_succ,
    if_neg fun he => hc (List.cons.inj he).1]

theorem rolesFrom_block (hq : q ≠ '\\') (s : List Char) :
    (∀ k ≤ 2, rolesFrom style (.block q k) s = behind style .inside .quote (closeRun q k s) s) ∧
    rolesFrom style (.blockEscape q) s =
      behind style .inside .quote (closeEscaped (closeBlock q) s) s := by
  induction s with
  | nil =>
      refine ⟨fun k hk => ?_, rfl⟩
      have hnone : closeRun q k [] = none := by
        obtain ⟨m, hm⟩ : ∃ m, 3 - k = m + 1 := ⟨2 - k, by omega⟩
        rw [closeRun, hm, List.take_nil, List.replicate_succ, if_neg (by simp)]
        rfl
      rw [hnone]
      rfl
  | cons c s ih =>
      have hone : ∀ n ∈ closeBlock q s, 1 ≤ n := fun n hn => by
        have := (closeBlock_bounds hn).1
        omega
      have hzero := ih.1 0 (by decide)
      rw [closeRun_zero hq] at hzero
      refine ⟨fun k hk => ?_, ?_⟩
      · by_cases hc : c = q
        · subst hc
          by_cases htwo : k = 2
          · subst htwo
            have hstep : (Mode.block c 2).step style c = some ([.quote], .code) := by
              simp [Mode.step]
            have hclose : closeRun c 2 (c :: s) = some 1 := by simp [closeRun]
            rw [rolesFrom_cons hstep, hclose, behind_one]
            rfl
          · have hstep : (Mode.block c k).step style c = some ([.inside], .block c (k + 1)) := by
              simp [Mode.step, htwo]
            have hlt : k < 2 := by omega
            rw [rolesFrom_cons hstep, closeRun_quote hq hlt, ih.1 (k + 1) hlt,
              behind_succ (one_le_closeRun hlt)]
            rfl
        · rw [closeRun_other hc hk, closeBlock_cons]
          by_cases hescape : c = '\\'
          · have hstep : (Mode.block q k).step style c = some ([.inside], .blockEscape q) := by
              rw [Mode.step, if_neg hc, if_pos hescape]
            rw [rolesFrom_cons hstep, if_pos hescape, ih.2, behind_succ one_le_closeEscaped]
            rfl
          · have hstep : (Mode.block q k).step style c = some ([.inside], .block q 0) := by
              rw [Mode.step, if_neg hc, if_neg hescape]
            have hmore : (c :: s).take 3 ≠ [q, q, q] := fun he => hc (List.cons.inj he).1
            rw [rolesFrom_cons hstep, if_neg hescape, if_neg hmore, hzero, behind_succ hone]
            rfl
      · rw [rolesFrom_cons rfl, closeEscaped, hzero, behind_succ hone]
        rfl

end Closing

section Pieces

variable {style : Style} {c : Char} {rest : List Char}

/-- The roles where a piece begins: those of the piece, and then those of what is behind it. -/
def Follows (style : Style) (c : Char) (rest : List Char) : Prop :=
  rolesFrom style .code (c :: rest) = match pieceAt style c rest with
    | .error _ => none
    | .ok (piece, n) => (rolesFrom style .code (rest.drop n)).map (piece.roles ++ ·)

theorem follows_code (hstart : startOf style c rest = .code)
    (hroles : rolesFrom style .code (c :: rest) =
      (rolesFrom style .code rest).map (.code :: ·)) : Follows style c rest := by
  rw [Follows, pieceAt, hstart, hroles]
  rfl

theorem follows_lineComment (hstart : startOf style c rest = .lineComment)
    (hroles : rolesFrom style .code (c :: rest) =
      (rolesFrom style .lineComment rest).map (.comment :: ·)) : Follows style c rest := by
  rw [Follows, pieceAt, hstart, hroles, rolesFrom_lineComment]
  simp [Piece.roles, List.replicate_succ, Function.comp_def]

theorem follows_blockComment (hstart : startOf style c rest = .blockComment)
    (hroles : rolesFrom style .code (c :: rest) =
      (behind style .comment .comment (closeComment (rest.drop 1)) (rest.drop 1)).map
        ([.comment, .comment] ++ ·)) : Follows style c rest := by
  rw [Follows, pieceAt, hstart, hroles]
  cases hclose : closeComment (rest.drop 1) with
  | none => rfl
  | some n =>
      obtain ⟨hlow, hn⟩ := closeComment_bounds hclose
      obtain ⟨m, rfl⟩ : ∃ m, n = m + 1 := ⟨n - 1, by omega⟩
      rw [List.length_drop] at hn
      have hpiece : (Piece.comment (c :: rest.take (m + 1 + 1))).roles =
          [Role.comment, Role.comment] ++ (List.replicate m Role.comment ++ [Role.comment]) := by
        rw [Piece.roles, List.length_cons, List.length_take, Nat.min_eq_left (by omega),
          ← List.replicate_succ']
        rfl
      simp [behind, hpiece, Function.comp_def, -List.drop_drop]

theorem follows_literal (hstart : startOf style c rest = .literal)
    (hroles : rolesFrom style .code (c :: rest) =
      (behind style .inside .quote (closeLiteral c rest) rest).map (.quote :: ·)) :
    Follows style c rest := by
  rw [Follows, pieceAt, hstart, hroles]
  cases hclose : closeLiteral c rest with
  | none => rfl
  | some n =>
      obtain ⟨-, hn⟩ := closeLiteral_bounds hclose
      have hlength : (rest.take (n - 1)).length = n - 1 := by
        rw [List.length_take]
        omega
      simp [behind, Piece.roles, hlength, Function.comp_def]

theorem follows_textBlock (hstart : startOf style c rest = .textBlock)
    (hroles : rolesFrom style .code (c :: rest) =
      (behind style .inside .quote (closeBlock c (rest.drop 2)) (rest.drop 2)).map
        ([.quote, .inside, .inside] ++ ·)) : Follows style c rest := by
  rw [Follows, pieceAt, hstart, hroles]
  cases hclose : closeBlock c (rest.drop 2) with
  | none => rfl
  | some n =>
      obtain ⟨hlow, hn⟩ := closeBlock_bounds hclose
      obtain ⟨m, rfl⟩ : ∃ m, n = m + 1 := ⟨n - 1, by omega⟩
      rw [List.length_drop] at hn
      have hpiece : (Piece.literal c (rest.take (m + 1 + 1))).roles =
          [Role.quote, Role.inside, Role.inside] ++
            (List.replicate m Role.inside ++ [Role.quote]) := by
        rw [Piece.roles, List.length_take, Nat.min_eq_left (by omega)]
        rfl
      have hdrop : (rest.drop 2).drop (m + 1) = rest.drop (m + 1 + 2) := by
        rw [List.drop_drop, Nat.add_comm]
      simp [behind, hpiece, hdrop, Function.comp_def, -List.drop_drop]

theorem follows_slash (rest : List Char) : Follows .curly '/' rest := by
  have hopen : rolesFrom .curly .code ('/' :: rest) = rolesFrom .curly .slash rest := by
    have hstep : Mode.code.step .curly '/' = some ([], .slash) := rfl
    rw [rolesFrom_cons hstep]
    simp
  cases rest with
  | nil => exact follows_code rfl rfl
  | cons d rest =>
      by_cases hslash : d = '/'
      · subst hslash
        apply follows_lineComment rfl
        rw [hopen, rolesFrom_cons (m := .slash) rfl, rolesFrom_cons (m := .lineComment) rfl]
        simp [Function.comp_def]
      · by_cases hstar : d = '*'
        · subst hstar
          apply follows_blockComment rfl
          rw [hopen, rolesFrom_cons (m := .slash) rfl, (rolesFrom_blockComment rest).1]
          rfl
        · apply follows_code
          · simp [startOf, hslash, hstar]
          · rw [hopen, rolesFrom_closed]
            simp [Mode.step, hslash, hstar]

theorem startOf_quote (hc : c = '"' ∨ c = '\'') (style : Style) (rest : List Char) :
    startOf style c rest =
      if rest.take 2 = [c, c] ∧ hasBlocks style c then .textBlock else .literal := by
  have hslash : c ≠ '/' := by rcases hc with rfl | rfl <;> decide
  have hhash : c ≠ '#' := by rcases hc with rfl | rfl <;> decide
  simp [startOf, hslash, hhash, hc, hasBlocks]

theorem follows_quote (hc : c = '"' ∨ c = '\'') (rest : List Char) : Follows style c rest := by
  have hescape : c ≠ '\\' := by rcases hc with rfl | rfl <;> decide
  have hfeed : c ≠ '\n' := by rcases hc with rfl | rfl <;> decide
  have hopen : rolesFrom style .code (c :: rest) =
      (rolesFrom style (.opened c) rest).map (.quote :: ·) := by
    have hstep : Mode.code.step style c = some ([.quote], .opened c) := by
      rcases hc with rfl | rfl <;> cases style <;> rfl
    rw [rolesFrom_cons hstep]
    rfl
  have hstart := startOf_quote hc style rest
  cases rest with
  | nil => exact follows_literal (by simpa using hstart) hopen
  | cons d rest =>
      -- Two quotes are an empty literal unless a third one makes them the beginning of a block.
      by_cases hpair : d = c ∧ hasBlocks style c
      · obtain ⟨rfl, hblocks⟩ := hpair
        have hstep : (Mode.opened d).step style d = some ([], .pair d) := by
          simp [Mode.step, hblocks]
        rw [rolesFrom_cons hstep] at hopen
        cases rest with
        | nil =>
            apply follows_literal (by simpa using hstart)
            rw [hopen, closeLiteral_cons, if_neg hescape, if_neg hfeed, if_pos rfl, behind_one]
            rfl
        | cons e rest =>
            by_cases he : e = d
            · subst he
              have hthird : (Mode.pair e).step style e = some ([.inside, .inside], .block e 0) := by
                simp [Mode.step]
              apply follows_textBlock (by simpa [hblocks] using hstart)
              rw [hopen, rolesFrom_cons hthird, (rolesFrom_block hescape rest).1 0 (by decide),
                closeRun_zero hescape]
              simp [Function.comp_def]
            · have hthird : (Mode.pair d).step style e = some (Mode.closed style .quote e) := by
                simp [Mode.step, he]
              apply follows_literal (by simpa [he] using hstart)
              rw [hopen, rolesFrom_closed hthird, closeLiteral_cons, if_neg hescape, if_neg hfeed,
                if_pos rfl, behind_one]
              simp [Function.comp_def]
      · have hstep : (Mode.opened c).step style d = (Mode.literal c).step style d := by
          simp [Mode.step, hpair]
        have hliteral : startOf style c (d :: rest) = .literal := by
          rw [hstart, if_neg]
          rintro ⟨htake, hblocks⟩
          exact hpair ⟨(List.cons.inj htake).1, hblocks⟩
        apply follows_literal hliteral
        rw [hopen, ← (rolesFrom_literal c (d :: rest)).1, rolesFrom, rolesFrom, hstep]

theorem follows (style : Style) (c : Char) (rest : List Char) : Follows style c rest := by
  by_cases hslash : style = .curly ∧ c = '/'
  · obtain ⟨rfl, rfl⟩ := hslash
    exact follows_slash rest
  · by_cases hhash : style = .python ∧ c = '#'
    · obtain ⟨rfl, rfl⟩ := hhash
      exact follows_lineComment rfl rfl
    · by_cases hquote : c = '"' ∨ c = '\''
      · exact follows_quote hquote rest
      · have hstep : Mode.code.step style c = some ([.code], .code) := by
          simp [Mode.step, Mode.start, hslash, hhash, hquote]
        refine follows_code ?_ (rolesFrom_cons hstep)
        have hstart : ∀ p : Prop, ¬ (style = .curly ∧ c = '/' ∧ p) :=
          fun p h => hslash ⟨h.1, h.2.1⟩
        simp [startOf, hstart, hhash, hquote]

end Pieces

end FunctionJar.Source
