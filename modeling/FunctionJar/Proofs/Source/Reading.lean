import FunctionJar.Proofs.Source.Blanking
import FunctionJar.Text.Blank

namespace FunctionJar.Source

abbrev IsQuote (c : Char) : Prop := c = '"' ∨ c = '\''

/-- What may stand between the quotes of a literal: no line feed and no such quote but escaped. -/
inductive LiteralText (q : Char) : List Char → Prop
  | nil : LiteralText q []
  | plain {c : Char} {s : List Char} (hescape : c ≠ '\\') (hfeed : c ≠ '\n') (hquote : c ≠ q)
      (hrest : LiteralText q s) : LiteralText q (c :: s)
  | escaped {c : Char} {s : List Char} (hrest : LiteralText q s) : LiteralText q ('\\' :: c :: s)

/-- What may stand in front of the three quotes that close a text block: nowhere three quotes in a
row, but for a quote that is escaped. -/
inductive BlockText (q : Char) : List Char → Prop
  | nil : BlockText q []
  | plain {c : Char} {s : List Char} (hescape : c ≠ '\\')
      (hquotes : ¬ [q, q, q] <+: c :: (s ++ [q, q, q])) (hrest : BlockText q s) :
      BlockText q (c :: s)
  | escaped {c : Char} {s : List Char} (hrest : BlockText q s) : BlockText q ('\\' :: c :: s)

def lineMark : Style → List Char
  | .curly => ['/', '/']
  | .python => ['#']

def openers (style : Style) : List (List Char) :=
  lineMark style :: (if style = .curly then [['/', '*']] else []) ++ [['"'], ['\'']]

def Opens (style : Style) (s : List Char) : Prop := ∃ o ∈ openers style, o <+: s

/-- How a piece is written in front of the rest of a source. -/
inductive Stands (style : Style) : Piece → List Char → Prop
  | code {c : Char} {rest : List Char} (hplain : ¬ Opens style (c :: rest)) :
      Stands style (.code c) rest
  | lineComment {line rest : List Char} (hline : '\n' ∉ line)
      (hend : rest = [] ∨ rest.head? = some '\n') :
      Stands style (.comment (lineMark style ++ line)) rest
  | blockComment {inner rest : List Char} (hstyle : style = .curly)
      (hfirst : ¬ ['*', '/'] <:+: inner ++ ['*']) :
      Stands style (.comment ('/' :: '*' :: inner ++ ['*', '/'])) rest
  | literal {q : Char} {inner rest : List Char} (hquote : IsQuote q) (hinner : LiteralText q inner)
      (hblock : ¬ (inner = [] ∧ hasBlocks style q = true ∧ rest.head? = some q)) :
      Stands style (.literal q inner) rest
  | textBlock {q : Char} {inner rest : List Char} (hquote : IsQuote q)
      (hblocks : hasBlocks style q = true) (hinner : BlockText q inner) :
      Stands style (.literal q (q :: q :: inner ++ [q, q])) rest

/-- A comment or literal that begins here and is never closed. -/
inductive Unclosed (style : Style) : List Char → String → Prop
  | blockComment {s : List Char} (hstyle : style = .curly) (hopen : ¬ ['*', '/'] <:+: s) :
      Unclosed style ('/' :: '*' :: s) "block comment"
  | textBlock {q : Char} {s : List Char} (hquote : IsQuote q) (hblocks : hasBlocks style q = true)
      (hopen : ∀ inner rest, BlockText q inner → s ≠ inner ++ q :: q :: q :: rest) :
      Unclosed style (q :: q :: q :: s) "multi-line string"
  | literal {q : Char} {s : List Char} (hquote : IsQuote q)
      (hblock : ¬ (hasBlocks style q = true ∧ [q, q] <+: s))
      (hopen : ∀ inner rest, LiteralText q inner → s ≠ inner ++ q :: rest) :
      Unclosed style (q :: s) "literal"

def text (ps : List Piece) : List Char := ps.flatMap Piece.source

/-- Pieces as they are written one behind the other, in front of the rest of a source. -/
def Standing (style : Style) : List Piece → List Char → Prop
  | [], _ => True
  | p :: ps, rest => Stands style p (text ps ++ rest) ∧ Standing style ps rest

structure Reads (style : Style) (s : List Char) (ps : List Piece) : Prop where
  text_eq : text ps = s
  standing : Standing style ps []

theorem text_cons (p : Piece) (ps : List Piece) : text (p :: ps) = p.source ++ text ps := rfl

theorem text_append (ps qs : List Piece) : text (ps ++ qs) = text ps ++ text qs :=
  List.flatMap_append

theorem standing_append {style : Style} {ps qs : List Piece} {rest : List Char} :
    Standing style (ps ++ qs) rest ↔
      Standing style ps (text qs ++ rest) ∧ Standing style qs rest := by
  induction ps with
  | nil => simp [Standing]
  | cons p ps ih =>
      rw [List.cons_append, Standing, Standing, ih, text_append, List.append_assoc, and_assoc]

section Closing

variable {q c : Char} {n : Nat} {s inner rest : List Char}

theorem IsQuote.ne_escape (h : IsQuote q) : q ≠ '\\' := by rcases h with rfl | rfl <;> decide

theorem IsQuote.ne_feed (h : IsQuote q) : q ≠ '\n' := by rcases h with rfl | rfl <;> decide

theorem IsQuote.not_blank (h : IsQuote q) : Text.isBlank q = false := by
  rcases h with rfl | rfl <;> decide

theorem closeComment_eq_none_iff : closeComment s = none ↔ ¬ ['*', '/'] <:+: s := by
  induction s with
  | nil => simp [closeComment]
  | cons c s ih =>
      rw [closeComment_cons, Option.map_eq_none_iff, List.infix_cons_iff, not_or]
      by_cases hc : c = '*'
      · subst hc
        cases s with
        | nil => simp [closeStar, closeComment]
        | cons d s =>
            by_cases hd : d = '/'
            · subst hd
              simp [closeStar]
            · simp [closeStar, hd, ih, Ne.symm hd]
      · simp [hc, ih, Ne.symm hc]

theorem closeComment_append (h : ¬ ['*', '/'] <:+: inner ++ ['*']) :
    closeComment (inner ++ '*' :: '/' :: rest) = some (inner.length + 2) := by
  induction inner with
  | nil => rfl
  | cons c inner ih =>
      rw [List.cons_append, List.infix_cons_iff, not_or] at h
      rw [List.cons_append, closeComment_cons]
      by_cases hc : c = '*'
      · have hslash : (inner ++ '*' :: '/' :: rest).head? ≠ some '/' := by
          cases inner with
          | nil => simp
          | cons d inner =>
              intro hd
              simp only [List.cons_append, List.head?_cons, Option.some.injEq] at hd
              exact h.1 (by simp [hc, hd])
        rw [if_pos hc, closeStar, if_neg hslash, ih h.2]
        rfl
      · rw [if_neg hc, ih h.2]
        rfl

theorem exists_of_closeComment (h : closeComment s = some n) : ∃ inner rest,
    s = inner ++ '*' :: '/' :: rest ∧ n = inner.length + 2 ∧ ¬ ['*', '/'] <:+: inner ++ ['*'] := by
  induction s generalizing n with
  | nil => cases h
  | cons c s ih =>
      rw [closeComment_cons] at h
      obtain ⟨m, hm, rfl⟩ := Option.map_eq_some_iff.mp h
      by_cases hc : c = '*' ∧ s.head? = some '/'
      · obtain ⟨rfl, hslash⟩ := hc
        obtain ⟨rest, rfl⟩ := List.head?_eq_some_iff.mp hslash
        exact ⟨[], rest, rfl, (Option.some.inj hm) ▸ rfl, by decide⟩
      · have hclose : closeComment s = some m := by
          by_cases hstar : c = '*'
          · rwa [if_pos hstar, closeStar, if_neg fun hslash => hc ⟨hstar, hslash⟩] at hm
          · rwa [if_neg hstar] at hm
        obtain ⟨inner, rest, rfl, rfl, hfirst⟩ := ih hclose
        refine ⟨c :: inner, rest, rfl, rfl, ?_⟩
        rw [List.cons_append, List.infix_cons_iff, not_or]
        refine ⟨fun hprefix => hc ?_, hfirst⟩
        cases inner with
        | nil => simp at hprefix
        | cons d inner => simpa [eq_comm] using hprefix

theorem ne_escape_of_cases (hlast : c = '\\' → s = [] → False)
    (hescaped : ∀ d rest, c = '\\' → s = d :: rest → False) : c ≠ '\\' := by
  intro hc
  cases s with
  | nil => exact hlast hc rfl
  | cons d rest => exact hescaped d rest hc rfl

theorem closeLiteral_append (hq : IsQuote q) (h : LiteralText q inner) :
    closeLiteral q (inner ++ q :: rest) = some (inner.length + 1) := by
  induction h with
  | nil =>
      rw [List.nil_append, closeLiteral_cons, if_neg hq.ne_escape, if_neg hq.ne_feed, if_pos rfl]
      rfl
  | plain hescape hfeed hquote _ ih =>
      rw [List.cons_append, closeLiteral_cons, if_neg hescape, if_neg hfeed, if_neg hquote, ih]
      rfl
  | escaped _ ih =>
      rw [List.cons_append, List.cons_append, closeLiteral, ih]
      rfl

theorem exists_of_closeLiteral (h : closeLiteral q s = some n) : ∃ inner rest,
    s = inner ++ q :: rest ∧ n = inner.length + 1 ∧ LiteralText q inner := by
  fun_induction closeLiteral q s generalizing n with
  | case1 | case2 | case4 => cases h
  | case3 c rest ih =>
      obtain ⟨m, hm, rfl⟩ := Option.map_eq_some_iff.mp h
      obtain ⟨inner, rest, rfl, rfl, hinner⟩ := ih hm
      exact ⟨'\\' :: c :: inner, rest, rfl, rfl, .escaped hinner⟩
  | case5 => exact ⟨[], _, rfl, (Option.some.inj h).symm, .nil⟩
  | case6 c rest hlast hescaped hfeed hquote ih =>
      obtain ⟨m, hm, rfl⟩ := Option.map_eq_some_iff.mp h
      obtain ⟨inner, rest, rfl, rfl, hinner⟩ := ih hm
      have hescape : c ≠ '\\' := ne_escape_of_cases hlast hescaped
      exact ⟨c :: inner, rest, rfl, rfl, .plain hescape hfeed hquote hinner⟩

theorem take_three_append (q c : Char) (s rest : List Char) :
    (c :: (s ++ q :: q :: q :: rest)).take 3 = (c :: (s ++ [q, q, q])).take 3 := by
  rcases s with - | ⟨d, - | ⟨e, s⟩⟩ <;> rfl

theorem closeBlock_append (hq : IsQuote q) (h : BlockText q inner) :
    closeBlock q (inner ++ q :: q :: q :: rest) = some (inner.length + 3) := by
  induction h with
  | nil =>
      have hthree : (q :: q :: q :: rest).take 3 = [q, q, q] := rfl
      rw [List.nil_append, closeBlock_cons, if_neg hq.ne_escape, if_pos hthree]
      rfl
  | @plain c s hescape hquotes _ ih =>
      have hmore : (c :: (s ++ q :: q :: q :: rest)).take 3 ≠ [q, q, q] :=
        fun htake => hquotes
          (List.prefix_iff_eq_take.mpr ((take_three_append q c s rest).symm.trans htake).symm)
      rw [List.cons_append, closeBlock_cons, if_neg hescape, if_neg hmore, ih]
      rfl
  | escaped _ ih =>
      rw [List.cons_append, List.cons_append, closeBlock, ih]
      rfl

theorem exists_of_closeBlock (h : closeBlock q s = some n) : ∃ inner rest,
    s = inner ++ q :: q :: q :: rest ∧ n = inner.length + 3 ∧ BlockText q inner := by
  fun_induction closeBlock q s generalizing n with
  | case1 | case2 => cases h
  | case3 c rest ih =>
      obtain ⟨m, hm, rfl⟩ := Option.map_eq_some_iff.mp h
      obtain ⟨inner, rest, rfl, rfl, hinner⟩ := ih hm
      exact ⟨'\\' :: c :: inner, rest, rfl, rfl, .escaped hinner⟩
  | case4 c rest _ _ hquotes =>
      refine ⟨[], (c :: rest).drop 3, ?_, (Option.some.inj h).symm, .nil⟩
      rw [← List.take_append_drop 3 (c :: rest), hquotes]
      rfl
  | case5 c rest hlast hescaped hquotes ih =>
      obtain ⟨m, hm, rfl⟩ := Option.map_eq_some_iff.mp h
      obtain ⟨inner, rest, rfl, rfl, hinner⟩ := ih hm
      have hescape : c ≠ '\\' := ne_escape_of_cases hlast hescaped
      refine ⟨c :: inner, rest, rfl, rfl, .plain hescape (fun hprefix => hquotes ?_) hinner⟩
      exact (take_three_append q c inner rest).trans (List.prefix_iff_eq_take.mp hprefix).symm

end Closing

section Pieces

variable {style : Style} {c : Char} {n : Nat} {p : Piece} {rest after : List Char}

theorem opens_iff : Opens style (c :: rest) ↔
    (∃ after, c :: rest = lineMark style ++ after) ∨
      (style = .curly ∧ c = '/' ∧ ∃ after, rest = '*' :: after) ∨ IsQuote c := by
  cases style <;> simp [Opens, openers, lineMark, IsQuote, List.prefix_iff_exists_append_eq, eq_comm]

/-- What there is at the start of a source, by what it starts with. -/
inductive Begins (style : Style) : Char → List Char → Start → Prop
  | code {c : Char} {rest : List Char} (hplain : ¬ Opens style (c :: rest)) :
      Begins style c rest .code
  | lineComment {c : Char} {mark rest : List Char} (hmark : lineMark style = c :: mark) :
      Begins style c (mark ++ rest) .lineComment
  | blockComment {rest : List Char} (hstyle : style = .curly) :
      Begins style '/' ('*' :: rest) .blockComment
  | literal {c : Char} {rest : List Char} (hquote : IsQuote c)
      (hblock : ¬ (hasBlocks style c = true ∧ [c, c] <+: rest)) : Begins style c rest .literal
  | textBlock {c : Char} {rest : List Char} (hquote : IsQuote c)
      (hblocks : hasBlocks style c = true) : Begins style c (c :: c :: rest) .textBlock

theorem begins (style : Style) (c : Char) (rest : List Char) :
    Begins style c rest (startOf style c rest) := by
  by_cases hquote : IsQuote c
  · rw [startOf_quote hquote]
    split
    · next hblock =>
        obtain ⟨after, rfl⟩ : [c, c] <+: rest := List.prefix_iff_eq_take.mpr hblock.1.symm
        exact .textBlock hquote hblock.2
    · next hblock =>
        refine .literal hquote fun h => hblock ⟨?_, h.1⟩
        exact (List.prefix_iff_eq_take.mp h.2).symm
  · unfold startOf
    split
    · next h =>
        obtain ⟨rfl, rfl, hslash⟩ := h
        obtain ⟨after, rfl⟩ := List.head?_eq_some_iff.mp hslash
        have hmark : lineMark .curly = '/' :: ['/'] := rfl
        exact .lineComment hmark
    · next hslashes =>
        split
        · next h =>
            obtain ⟨rfl, rfl⟩ := h
            have hmark : lineMark .python = '#' :: [] := rfl
            exact .lineComment hmark
        · next hhash =>
            split
            · next h =>
                obtain ⟨rfl, rfl, hstar⟩ := h
                obtain ⟨after, rfl⟩ := List.head?_eq_some_iff.mp hstar
                exact .blockComment rfl
            · next hstar =>
                refine .code fun hopens => ?_
                rcases opens_iff.mp hopens with ⟨after, hmark⟩ | ⟨hstyle, rfl, after, rfl⟩ | h
                · cases style <;> simp_all [lineMark]
                · exact hstar ⟨hstyle, rfl, rfl⟩
                · exact hquote h

theorem takeWhile_line {line tail : List Char} (hline : '\n' ∉ line)
    (hend : tail = [] ∨ tail.head? = some '\n') : (line ++ tail).takeWhile (· ≠ '\n') = line := by
  rw [List.takeWhile_append_of_pos fun d hd => by simpa using ne_of_mem_of_not_mem hd hline]
  rcases hend with rfl | hfeed
  · simp
  · obtain ⟨tail, rfl⟩ := List.head?_eq_some_iff.mp hfeed
    simp

theorem exists_line (s : List Char) : ∃ line tail, s = line ++ tail ∧ '\n' ∉ line ∧
    (tail = [] ∨ tail.head? = some '\n') := by
  refine ⟨s.takeWhile (· ≠ '\n'), s.dropWhile (· ≠ '\n'), List.takeWhile_append_dropWhile.symm,
    fun hmem => by simpa using List.all_eq_true.mp List.all_takeWhile _ hmem, ?_⟩
  cases htail : s.dropWhile (· ≠ '\n') with
  | nil => exact .inl rfl
  | cons d tail =>
      have hd := List.head?_dropWhile_not (· ≠ '\n') s
      rw [htail] at hd
      exact .inr (by simpa using hd)

theorem feed_not_mem_lineMark (style : Style) : '\n' ∉ lineMark style := by cases style <;> decide

theorem stands_of_pieceAt (h : pieceAt style c rest = .ok (p, n)) :
    Stands style p (rest.drop n) := by
  unfold pieceAt at h
  generalize hstart : startOf style c rest = start at h
  have hbegins := begins style c rest
  rw [hstart] at hbegins
  cases hbegins with
  | code hplain =>
      obtain ⟨rfl, rfl⟩ := Prod.mk.inj (Except.ok.inj h)
      exact .code hplain
  | @lineComment _ mark rest hmark =>
      obtain ⟨rfl, rfl⟩ := Prod.mk.inj (Except.ok.inj h)
      obtain ⟨line, tail, rfl, hline, hend⟩ := exists_line rest
      have hmarked : '\n' ∉ mark ++ line := by
        have := feed_not_mem_lineMark style
        simp_all
      rw [← List.append_assoc, takeWhile_line hmarked hend, List.drop_left, ← List.cons_append,
        ← hmark]
      exact .lineComment hline hend
  | blockComment hstyle =>
      simp only [List.drop_succ_cons, List.drop_zero] at h
      split at h
      · next m hclose =>
          obtain ⟨rfl, rfl⟩ := Prod.mk.inj (Except.ok.inj h)
          obtain ⟨inner, tail, rfl, rfl, hfirst⟩ := exists_of_closeComment hclose
          have hstands : Stands style (.comment ('/' :: '*' :: inner ++ ['*', '/'])) tail :=
            .blockComment hstyle hfirst
          simpa [List.take_append, List.drop_append, List.take_of_length_le,
            List.drop_of_length_le] using hstands
      · cases h
  | literal hquote hblock =>
      simp only at h
      split at h
      · next m hclose =>
          obtain ⟨rfl, rfl⟩ := Prod.mk.inj (Except.ok.inj h)
          obtain ⟨inner, tail, rfl, rfl, hinner⟩ := exists_of_closeLiteral hclose
          have hstands : Stands style (.literal c inner) tail := by
            refine .literal hquote hinner ?_
            rintro ⟨rfl, hblocks, hhead⟩
            obtain ⟨tail, rfl⟩ := List.head?_eq_some_iff.mp hhead
            exact hblock ⟨hblocks, tail, rfl⟩
          simpa [List.take_append, List.drop_append, List.take_of_length_le,
            List.drop_of_length_le] using hstands
      · cases h
  | textBlock hquote hblocks =>
      simp only [List.drop_succ_cons, List.drop_zero] at h
      split at h
      · next m hclose =>
          obtain ⟨rfl, rfl⟩ := Prod.mk.inj (Except.ok.inj h)
          obtain ⟨inner, tail, rfl, rfl, hinner⟩ := exists_of_closeBlock hclose
          have hstands : Stands style (.literal c (c :: c :: inner ++ [c, c])) tail :=
            .textBlock hquote hblocks hinner
          simpa [List.take_append, List.drop_append, List.take_of_length_le,
            List.drop_of_length_le] using hstands
      · cases h

theorem startOf_of_begins {start : Start} (h : Begins style c rest start) :
    startOf style c rest = start := by
  cases h with
  | code hplain =>
      rw [opens_iff, not_or, not_or] at hplain
      obtain ⟨hmark, hstar, hquote⟩ := hplain
      have hslashes : ¬ (style = .curly ∧ c = '/' ∧ rest.head? = some '/') := by
        rintro ⟨rfl, rfl, hslash⟩
        obtain ⟨after, rfl⟩ := List.head?_eq_some_iff.mp hslash
        exact hmark ⟨after, rfl⟩
      have hhash : ¬ (style = .python ∧ c = '#') := by
        rintro ⟨rfl, rfl⟩
        exact hmark ⟨rest, rfl⟩
      have hblock : ¬ (style = .curly ∧ c = '/' ∧ rest.head? = some '*') :=
        fun ⟨hstyle, hc, hhead⟩ => hstar ⟨hstyle, hc, List.head?_eq_some_iff.mp hhead⟩
      rw [startOf, if_neg hslashes, if_neg hhash, if_neg hblock, if_neg hquote]
  | lineComment hmark => cases style <;> cases hmark <;> simp [startOf]
  | blockComment hstyle => simp [startOf, hstyle]
  | literal hquote hblock =>
      rw [startOf_quote hquote, if_neg]
      exact fun h => hblock ⟨h.2, List.prefix_iff_eq_take.mpr h.1.symm⟩
  | textBlock hquote hblocks => rw [startOf_quote hquote, if_pos ⟨rfl, hblocks⟩]

theorem pieceAt_of_stands (h : Stands style p after) : ∃ c rest, p.source = c :: rest ∧
    pieceAt style c (rest ++ after) = .ok (p, rest.length) := by
  cases h with
  | code hplain =>
      refine ⟨_, [], rfl, ?_⟩
      rw [List.nil_append, pieceAt, startOf_of_begins (.code hplain)]
      rfl
  | @lineComment line _ hline hend =>
      obtain ⟨c, mark, hmark⟩ : ∃ c mark, lineMark style = c :: mark :=
        List.exists_cons_of_ne_nil (by cases style <;> decide)
      have hmarked : '\n' ∉ mark ++ line := by
        have := feed_not_mem_lineMark style
        simp_all
      refine ⟨c, mark ++ line, by rw [Piece.source, hmark]; rfl, ?_⟩
      rw [pieceAt, List.append_assoc, startOf_of_begins (.lineComment hmark), ← List.append_assoc]
      simp only [takeWhile_line hmarked hend, hmark, List.cons_append]
  | @blockComment inner _ hstyle hfirst =>
      have hclose : closeComment (inner ++ '*' :: '/' :: after) = _ := closeComment_append hfirst
      refine ⟨'/', '*' :: inner ++ ['*', '/'], rfl, ?_⟩
      rw [pieceAt, List.cons_append, List.cons_append, startOf_of_begins (.blockComment hstyle)]
      simp [hclose, List.take_append, List.take_of_length_le]
  | @literal q inner _ hquote hinner hblock =>
      have hclose : closeLiteral q (inner ++ q :: after) = _ := closeLiteral_append hquote hinner
      have hstart : startOf style q (inner ++ q :: after) = .literal := by
        refine startOf_of_begins (.literal hquote ?_)
        rintro ⟨hblocks, hquotes⟩
        refine hblock ?_
        cases hinner with
        | nil =>
            obtain ⟨tail, rfl⟩ : [q] <+: after := by simpa using hquotes
            exact ⟨rfl, hblocks, rfl⟩
        | plain _ _ hother _ => exact absurd (List.cons_prefix_cons.mp hquotes).1.symm hother
        | escaped _ => exact absurd (List.cons_prefix_cons.mp hquotes).1 hquote.ne_escape
      refine ⟨q, inner ++ [q], rfl, ?_⟩
      rw [pieceAt, List.append_assoc, List.singleton_append, hstart]
      simp [hclose]
  | @textBlock q inner _ hquote hblocks hinner =>
      have hclose : closeBlock q (inner ++ q :: q :: q :: after) = _ :=
        closeBlock_append hquote hinner
      refine ⟨q, q :: q :: (inner ++ [q, q, q]), by simp [Piece.source], ?_⟩
      rw [pieceAt, List.cons_append, List.cons_append, startOf_of_begins (.textBlock hquote hblocks)]
      simp [hclose, List.take_append, List.take_of_length_le]

theorem unclosed_of_pieceAt {what : Opened} (h : pieceAt style c rest = .error what) :
    Unclosed style (c :: rest) what.name := by
  unfold pieceAt at h
  generalize hstart : startOf style c rest = start at h
  have hbegins := begins style c rest
  rw [hstart] at hbegins
  cases hbegins with
  | code | lineComment => cases h
  | blockComment hstyle =>
      simp only [List.drop_succ_cons, List.drop_zero] at h
      split at h
      · cases h
      · next hclose =>
          obtain rfl := Except.error.inj h
          exact .blockComment hstyle (closeComment_eq_none_iff.mp hclose)
  | literal hquote hblock =>
      simp only at h
      split at h
      · cases h
      · next hclose =>
          obtain rfl := Except.error.inj h
          refine .literal hquote hblock fun inner tail hinner heq => ?_
          rw [heq, closeLiteral_append hquote hinner] at hclose
          cases hclose
  | textBlock hquote hblocks =>
      simp only [List.drop_succ_cons, List.drop_zero] at h
      split at h
      · cases h
      · next hclose =>
          obtain rfl := Except.error.inj h
          refine .textBlock hquote hblocks fun inner tail hinner heq => ?_
          rw [heq, closeBlock_append hquote hinner] at hclose
          cases hclose

theorem pieceAt_of_unclosed {name : String} (h : Unclosed style after name) : ∃ c rest what,
    after = c :: rest ∧ pieceAt style c rest = .error what ∧ what.name = name := by
  cases h with
  | @blockComment s hstyle hopen =>
      refine ⟨'/', '*' :: s, .blockComment, rfl, ?_, rfl⟩
      have hclose := closeComment_eq_none_iff.mpr hopen
      rw [pieceAt, startOf_of_begins (.blockComment hstyle)]
      simp [hclose]
  | @textBlock q s hquote hblocks hopen =>
      refine ⟨q, q :: q :: s, .textBlock, rfl, ?_, rfl⟩
      rw [pieceAt, startOf_of_begins (.textBlock hquote hblocks)]
      cases hclose : closeBlock q s with
      | none => simp [hclose]
      | some n =>
          obtain ⟨inner, rest, heq, -, hinner⟩ := exists_of_closeBlock hclose
          exact absurd heq (hopen inner rest hinner)
  | @literal q s hquote hblock hopen =>
      refine ⟨q, s, .literal, rfl, ?_, rfl⟩
      rw [pieceAt, startOf_of_begins (.literal hquote hblock)]
      cases hclose : closeLiteral q s with
      | none => simp
      | some n =>
          obtain ⟨inner, rest, heq, -, hinner⟩ := exists_of_closeLiteral hclose
          exact absurd heq (hopen inner rest hinner)

theorem pieces_text_append {ps : List Piece} (h : Standing style ps rest) :
    pieces style (text ps ++ rest) =
      ⟨ps ++ (pieces style rest).pieces, (pieces style rest).leftOpen⟩ := by
  induction ps with
  | nil => rfl
  | cons p ps ih =>
      obtain ⟨c, inner, hsource, hpiece⟩ := pieceAt_of_stands h.1
      have htext : text (p :: ps) ++ rest = c :: (inner ++ (text ps ++ rest)) := by
        rw [text_cons, hsource, List.append_assoc, List.cons_append]
      rw [htext, pieces_cons, hpiece]
      simp only [List.drop_left, ih h.2, List.cons_append]

theorem exists_rest (style : Style) (s : List Char) : ∃ rest,
    text (pieces style s).pieces ++ rest = s ∧ Standing style (pieces style s).pieces rest ∧
      match (pieces style s).leftOpen with
      | none => rest = []
      | some what => Unclosed style rest what.name := by
  -- A piece takes any number of characters, so the induction is on how many there are.
  induction hlength : s.length using Nat.strongRecOn generalizing s with
  | ind k ih =>
      cases s with
      | nil => exact ⟨[], rfl, trivial, rfl⟩
      | cons c s =>
          rw [pieces_cons]
          cases hpiece : pieceAt style c s with
          | error what => exact ⟨c :: s, rfl, trivial, unclosed_of_pieceAt hpiece⟩
          | ok out =>
              obtain ⟨p, n⟩ := out
              have hlt : (s.drop n).length < k := by
                rw [← hlength, List.length_drop, List.length_cons]
                omega
              obtain ⟨rest, htext, hstanding, hopen⟩ := ih _ hlt (s.drop n) rfl
              refine ⟨rest, ?_, ⟨?_, hstanding⟩, hopen⟩
              · rw [text_cons, (source_pieceAt hpiece).2, List.append_assoc]
                exact congrArg (c :: ·) ((congrArg (s.take n ++ ·) htext).trans
                  (List.take_append_drop n s))
              · rw [htext]
                exact stands_of_pieceAt hpiece

theorem reads_iff {s : List Char} {ps : List Piece} :
    Reads style s ps ↔ pieces style s = ⟨ps, none⟩ := by
  constructor
  · rintro ⟨rfl, hstanding⟩
    have hpieces := pieces_text_append hstanding
    rw [List.append_nil] at hpieces
    simpa [pieces, piecesFrom] using hpieces
  · intro h
    obtain ⟨rest, htext, hstanding, hopen⟩ := exists_rest style s
    rw [h] at htext hstanding hopen
    obtain rfl : rest = [] := hopen
    exact ⟨by simpa using htext, hstanding⟩

end Pieces

end FunctionJar.Source
