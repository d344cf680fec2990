import BinFleet.Proofs.Settings.Outline
import Mathlib.Data.List.DropRight

namespace BinFleet.Text

section Ends

variable {α : Type} {drop : α → Bool}

theorem exists_ends (drop : α → Bool) (xs : List α) :
    ∃ lead trail, (∀ x ∈ lead, drop x) ∧ (∀ x ∈ trail, drop x) ∧ xs = lead ++ (stripWhere drop xs ++ trail) := by
  refine ⟨xs.takeWhile drop, ((xs.dropWhile drop).reverse.takeWhile drop).reverse, ?_, ?_, ?_⟩
  · exact fun x hx => List.mem_takeWhile_imp hx
  · exact fun x hx => List.mem_takeWhile_imp (List.mem_reverse.mp hx)
  · rw [stripWhere, ← List.reverse_append, List.takeWhile_append_dropWhile, List.reverse_reverse,
      List.takeWhile_append_dropWhile]

/-- All stays in front of an item that stays when the first item does. -/
theorem stripWhere_append_cons {front : List α} (hfirst : ∀ x ∈ front.head?, ¬ drop x) {x : α} (hx : ¬ drop x)
    (rest : List α) : ∃ kept, stripWhere drop (front ++ x :: rest) = front ++ x :: kept := by
  have hkeep : (front ++ x :: rest).dropWhile drop = front ++ x :: rest := by
    cases front with
    | nil => exact List.dropWhile_cons_of_neg hx
    | cons y front => exact List.dropWhile_cons_of_neg (hfirst y rfl)
  refine ⟨(rest.reverse.dropWhile drop).reverse, ?_⟩
  rw [stripWhere, hkeep, List.reverse_append, List.reverse_cons, List.append_assoc, List.dropWhile_append]
  split_ifs with hempty
  · simp [List.isEmpty_iff.mp hempty, hx]
  · simp

theorem ends_stripWhere (drop : α → Bool) (xs : List α) :
    (∀ x ∈ (stripWhere drop xs).head?, ¬ drop x) ∧ ∀ x ∈ (stripWhere drop xs).getLast?, ¬ drop x := by
  have hhead : ∀ (ys : List α) {x : α}, (ys.dropWhile drop).head? = some x → ¬ drop x := by
    intro ys x hx
    have hnot := List.head?_dropWhile_not drop ys
    rw [hx] at hnot
    simpa using hnot
  refine ⟨fun x hx => ?_, fun x hx => ?_⟩
  · obtain ⟨trail, hstarts⟩ := List.rdropWhile_prefix drop (l := xs.dropWhile drop)
    refine hhead xs ?_
    rw [← hstarts, List.head?_append]
    exact (congrArg (Option.or · _) hx).trans rfl
  · rw [stripWhere, List.getLast?_reverse] at hx
    exact hhead _ hx

/-- Nothing is taken off but what the test accepts. -/
theorem filter_stripWhere (drop : α → Bool) (xs : List α) :
    (stripWhere drop xs).filter (fun x => !drop x) = xs.filter fun x => !drop x := by
  obtain ⟨lead, trail, hlead, htrail, heq⟩ := exists_ends drop xs
  have hnone : ∀ ys : List α, (∀ y ∈ ys, drop y) → ys.filter (fun y => !drop y) = [] := by
    intro ys hys
    rw [List.filter_eq_nil_iff]
    intro y hy
    simp [hys y hy]
  conv_rhs => rw [heq, List.filter_append, List.filter_append, hnone lead hlead, hnone trail htrail]
  simp

end Ends

section Marks

variable {α : Type} [BEq α] [LawfulBEq α] {mark : List α}

/-- What follows does not move the first occurrence of a mark. -/
theorem cutAtInto_append {found xs before after : List α} (h : cutAtInto mark found xs = some (before, after))
    (more : List α) (hmark : mark ≠ []) : cutAtInto mark found (xs ++ more) = some (before, after ++ more) := by
  induction xs generalizing found with
  | nil => simp [cutAtInto, hmark] at h
  | cons x xs ih =>
    rw [cutAtInto] at h
    rw [List.cons_append, cutAtInto]
    split_ifs at h with hfirst
    · obtain ⟨rfl, rfl⟩ := Prod.mk.inj (Option.some.inj h)
      have hstarts := List.isPrefixOf_iff_prefix.mp hfirst
      have hlonger : mark.isPrefixOf (x :: (xs ++ more)) :=
        List.isPrefixOf_iff_prefix.mpr (hstarts.trans (List.prefix_append _ _))
      rw [if_pos hlonger, ← List.cons_append, List.drop_append_of_le_length hstarts.length_le]
    · have hin : mark <:+: xs := by
        by_contra hnone
        rw [(cutAtInto_eq_none_iff _).mpr hnone] at h
        simp at h
      have hnot : ¬ mark.isPrefixOf (x :: (xs ++ more)) := by
        intro hstarts
        refine hfirst (List.isPrefixOf_iff_prefix.mpr ?_)
        have hlength : mark.length ≤ (x :: xs).length := hin.length_le.trans (Nat.le_succ _)
        exact List.prefix_of_prefix_length_le (List.isPrefixOf_iff_prefix.mp hstarts) (List.prefix_append _ _) hlength
      rw [if_neg hnot]
      exact ih h

/-- A mark is found behind what does not hold it, even with the beginning of the mark. -/
theorem cutAtInto_mark {start : List α} {last : α} {front : List α} (h : ¬ start ++ [last] <:+: front ++ start)
    (found rest : List α) :
    cutAtInto (start ++ [last]) found (front ++ (start ++ last :: rest)) = some (found.reverse ++ front, rest) := by
  induction front generalizing found with
  | nil =>
    have hne := List.append_ne_nil_of_right_ne_nil start (List.cons_ne_nil last rest)
    obtain ⟨y, ys, hy⟩ := List.exists_cons_of_ne_nil hne
    have hfirst : (start ++ [last]).isPrefixOf (y :: ys) := by
      rw [← hy, List.isPrefixOf_iff_prefix]
      exact ⟨rest, by simp⟩
    rw [List.nil_append, hy, cutAtInto, if_pos hfirst, ← hy]
    simp
  | cons x front ih =>
    have hnot : ¬ (start ++ [last]).isPrefixOf (x :: (front ++ (start ++ last :: rest))) := by
      intro hstarts
      refine h (List.IsPrefix.isInfix (List.prefix_of_prefix_length_le (List.isPrefixOf_iff_prefix.mp hstarts) ?_ ?_))
      · exact ⟨last :: rest, by simp⟩
      · simp
    rw [List.cons_append, cutAtInto, if_neg hnot, ih fun hin => h (List.infix_cons hin)]
    simp

theorem not_infix_append {α : Type} {start front more : List α} {last : α} (hfront : ¬ start ++ [last] <:+: front)
    (hmore : last ∉ more) : ¬ start ++ [last] <:+: front ++ more := by
  induction more generalizing front with
  | nil => rwa [List.append_nil]
  | cons x more ih =>
    obtain ⟨hx, hmore⟩ := not_or.mp (List.mem_cons.not.mp hmore)
    rw [List.append_cons front x more]
    refine ih (fun hin => ?_) hmore
    rcases List.infix_concat_iff.mp hin with hends | hin
    · obtain ⟨before, hends⟩ := hends
      rw [← List.append_assoc] at hends
      exact hx (by simpa using (List.append_inj' hends rfl).2)
    · exact hfront hin

end Marks

end BinFleet.Text

namespace BinFleet.Settings

open Text.Utf8 (Symbol symbols ofString)

/-- A line with a comment behind it. -/
def commented (line comment : Octets) : Octets := line ++ (ofString " #" ++ comment)

/-- A key has no colon and starts no comment. -/
structure IsKey (key : List Symbol) : Prop where
  noColon : .char ':' ∉ key
  noComment : key.head? ≠ some (.char '#')

inductive LineKind where
  | header
  | plain
  | quoted
  deriving DecidableEq

/-- Lines that say something, up to blanks at their ends: `key:`, `key: value`, and `key: value`
with the value in quotes. -/
inductive HasKind (line : Octets) : LineKind → Prop
  | header {key : List Symbol} (hkey : IsKey key) (hline : Text.trimSymbols (symbols line) = key ++ marks ":") :
      HasKind line .header
  | plain {key rest : List Symbol} (hkey : IsKey key)
      (hline : Text.trimSymbols (symbols line) = key ++ (marks ": " ++ rest))
      (hvalue : ∀ s ∈ (Text.trimSymbols rest).head?, ¬ isQuote s) : HasKind line .plain
  | quoted {key rest inside : List Symbol} {quote : Symbol} (hkey : IsKey key)
      (hline : Text.trimSymbols (symbols line) = key ++ (marks ": " ++ rest)) (hquote : isQuote quote)
      (hvalue : Text.trimSymbols rest = quote :: (inside ++ [quote])) : HasKind line .quoted

/-- What a line says, from its indent and from its content without blanks at the ends. -/
def Statement.ofContent (indent : Nat) (content : List Symbol) : Statement :=
  if content.isEmpty || content.head? == some (.char '#') then silent
  else if content.getLast? == some (.char ':') && (Text.cutAt? (marks ": ") content).isNone then
    heading indent content.dropLast
  else ofLeaf indent content

def indentOf (line : Octets) : Nat := ((symbols line).takeWhile (· == .char ' ')).length

theorem statement_eq (line : Octets) :
    statement line = .ofContent (indentOf line) (Text.trimSymbols (symbols line)) := rfl

theorem symbols_commented (line comment : Octets) :
    symbols (commented line comment) = symbols line ++ .char ' ' :: .char '#' :: symbols comment := by
  have hmark : symbols (0x23 :: comment) = .char '#' :: symbols comment :=
    Text.Utf8.symbols_around [] (c := '#') (by decide) comment
  rw [← hmark]
  exact Text.Utf8.symbols_around line (c := ' ') (by decide) (0x23 :: comment)

/-- Without blanks, a commented text is the text without blanks with the comment behind it. -/
theorem trimSymbols_commented {xs trail : List Symbol} (hne : Text.trimSymbols xs ≠ [])
    (htrail : ∀ s ∈ trail, isSpace s) (comment : List Symbol) :
    ∃ more kept, (∀ s ∈ more, isSpace s) ∧
      Text.trimSymbols (xs ++ (trail ++ .char ' ' :: .char '#' :: comment)) =
        Text.trimSymbols xs ++ (more ++ .char ' ' :: .char '#' :: kept) := by
  obtain ⟨lead, blanks, hlead, hblanks, hends⟩ := Text.exists_ends isSpace xs
  have hfirst := (Text.ends_stripWhere isSpace xs).1
  rw [← trimSymbols_eq] at hends hfirst
  obtain ⟨first, rest, hcons⟩ := List.exists_cons_of_ne_nil hne
  rw [hcons] at hends hfirst ⊢
  have hfront : ∀ s ∈ (first :: rest ++ (blanks ++ (trail ++ [Symbol.char ' ']))).head?, ¬ isSpace s := by
    simpa using hfirst
  obtain ⟨kept, hkept⟩ := Text.stripWhere_append_cons hfront (x := .char '#') (by decide) comment
  refine ⟨blanks ++ trail, kept, fun s hs => (List.mem_append.mp hs).elim (hblanks s) (htrail s), ?_⟩
  rw [hends, trimSymbols_eq, List.append_assoc, Text.stripWhere_append hlead]
  simpa using hkept

theorem indentOf_commented {line : Octets} (hne : Text.trimSymbols (symbols line) ≠ []) (comment : Octets) :
    indentOf (commented line comment) = indentOf line := by
  obtain ⟨lead, trail, -, -, hends⟩ := Text.exists_ends isSpace (symbols line)
  have hfirst := (Text.ends_stripWhere isSpace (symbols line)).1
  rw [← trimSymbols_eq] at hends hfirst
  obtain ⟨first, rest, hcons⟩ := List.exists_cons_of_ne_nil hne
  rw [hcons] at hends hfirst
  have hother : first ≠ .char ' ' := fun h => hfirst first rfl (h ▸ rfl)
  -- blanks are counted up to the first symbol that stays
  have hindent : ∀ tail, (lead ++ first :: tail).takeWhile (· == .char ' ') = lead.takeWhile (· == .char ' ') := by
    intro tail
    rw [List.takeWhile_append]
    split_ifs with hall
    · simpa [hother] using (( List.takeWhile_prefix _).eq_of_length hall).symm
    · rfl
  rw [indentOf, indentOf, symbols_commented, hends]
  simp only [List.append_assoc, List.cons_append, hindent]

/-- The comment comes to the content, and the indent stays. -/
theorem statement_commented {line : Octets} (hne : Text.trimSymbols (symbols line) ≠ []) (comment : Octets) :
    ∃ trail kept, (∀ s ∈ trail, isSpace s) ∧
      statement (commented line comment) =
        .ofContent (indentOf line) (Text.trimSymbols (symbols line) ++ (trail ++ .char ' ' :: .char '#' :: kept)) := by
  obtain ⟨trail, kept, htrail, hkept⟩ := trimSymbols_commented hne (List.forall_mem_nil _) (symbols comment)
  refine ⟨trail, kept, htrail, ?_⟩
  rw [statement_eq, indentOf_commented hne, symbols_commented, ← hkept, List.nil_append]

theorem IsKey.head?_append {key : List Symbol} (hkey : IsKey key) (c : Char) (hc : c ≠ '#') (rest : List Symbol) :
    ((key ++ .char c :: rest).isEmpty || (key ++ .char c :: rest).head? == some (.char '#')) = false := by
  have hfirst := hkey.noComment
  cases key with
  | nil => simp [hc]
  | cons s key => simpa using hfirst

theorem ofContent_header {key : List Symbol} (hkey : IsKey key) (indent : Nat) :
    Statement.ofContent indent (key ++ marks ":") = .heading indent key := by
  have hcut : Text.cutAt? (marks ": ") (key ++ marks ":") = none := by
    rw [Text.cutAt?_eq_none_iff]
    have hinside : ¬ [Symbol.char ':'] ++ [.char ' '] <:+: key := fun hin =>
      hkey.noColon (hin.subset List.mem_cons_self)
    exact Text.not_infix_append hinside (by decide)
  have hshown := hkey.head?_append ':' (by decide) []
  have hlast : (key ++ marks ":").getLast? = some (.char ':') := by simp [marks]
  rw [Statement.ofContent, hlast, hcut]
  simp only [marks, String.reduceToList, List.map_cons, List.map_nil, hshown]
  simp

theorem heading_of_ofContent {indent : Nat} {content name : List Symbol}
    (h : Statement.ofContent indent content = .heading indent name) : name = content.dropLast := by
  unfold Statement.ofContent Statement.ofLeaf at h
  split_ifs at h
  · exact (Statement.heading.inj h).2.symm
  · split at h
    · simp at h
    · dsimp only at h
      split_ifs at h

/-- The value that follows a key and a colon. -/
def valueOf (rest : List Symbol) : List Symbol := stripComment (Text.trimSymbols rest)

theorem ofContent_leaf {key : List Symbol} (hkey : IsKey key) (indent : Nat) (rest : List Symbol) :
    Statement.ofContent indent (key ++ (marks ": " ++ rest)) =
      if (valueOf rest).isEmpty then .idle indent
      else .leaf indent (Text.trimSymbols key) (Text.stripWhere isQuote (valueOf rest)) := by
  have hcut : (Text.cutAt? (marks ": ") (key ++ (marks ": " ++ rest))).isNone = false := by
    rw [Bool.eq_false_iff, Ne, Option.isNone_iff_eq_none, Text.cutAt?_eq_none_iff, not_not]
    exact ⟨key, rest, by simp⟩
  have hshown := hkey.head?_append ':' (by decide) (.char ' ' :: rest)
  have hkeyed : Text.cut? (.char ':') (key ++ (marks ": " ++ rest)) = some (key, .char ' ' :: rest) :=
    Text.cut?_append hkey.noColon _
  have htrim : Text.trimSymbols (.char ' ' :: rest) = Text.trimSymbols rest := by
    have hblank : ∀ s ∈ [Symbol.char ' '], isSpace s := by decide
    exact Text.stripWhere_append hblank rest
  rw [show .char ':' :: .char ' ' :: rest = marks ": " ++ rest from rfl] at hshown
  rw [Statement.ofContent, hshown, hcut, Statement.ofLeaf, hkeyed]
  simp only [htrim, valueOf, Bool.and_false, Bool.false_eq_true, if_false]
  rfl

section Kinds

variable {line : Octets} {key rest trail kept : List Symbol}

theorem header_commented_ne (hkey : IsKey key) (hline : Text.trimSymbols (symbols line) = key ++ marks ":")
    (comment : Octets) : statement (commented line comment) ≠ statement line := by
  have hcontent : Text.trimSymbols (symbols line) ≠ [] := by simp [hline, marks]
  obtain ⟨trail, kept, -, hcommented⟩ := statement_commented hcontent comment
  rw [statement_eq line, hline, ofContent_header hkey, hcommented, hline]
  intro hsame
  have hlength := congrArg List.length (heading_of_ofContent hsame)
  simp [marks] at hlength

/-- The content of a line does not end with a blank. -/
theorem trimSymbols_value_ne_nil (hline : Text.trimSymbols (symbols line) = key ++ (marks ": " ++ rest)) :
    Text.trimSymbols rest ≠ [] := by
  intro hempty
  obtain ⟨lead, trail, hlead, htrail, hrest⟩ := Text.exists_ends isSpace rest
  rw [← trimSymbols_eq, hempty, List.nil_append] at hrest
  have hspaces : ∀ s ∈ .char ' ' :: rest, isSpace s := by
    rw [hrest]
    simp only [List.forall_mem_cons, List.forall_mem_append]
    exact ⟨rfl, hlead, htrail⟩
  have hlast := (Text.ends_stripWhere isSpace (symbols line)).2
  rw [← trimSymbols_eq, hline] at hlast
  have hshape : key ++ (marks ": " ++ rest) = (key ++ [.char ':']) ++ .char ' ' :: rest := by simp [marks]
  rw [hshape, List.getLast?_append_cons] at hlast
  exact hlast _ (List.getLast?_eq_getLast_of_ne_nil (List.cons_ne_nil _ _)) (hspaces _ (List.getLast_mem _))

/-- A plain value is cut where it was, or else before the comment. -/
theorem stripComment_commented (hvalue : ∀ s ∈ (Text.trimSymbols rest).head?, ¬ isQuote s)
    (hne : Text.trimSymbols rest ≠ []) (htrail : ∀ s ∈ trail, isSpace s) (kept : List Symbol) :
    stripComment (Text.trimSymbols rest ++ (trail ++ .char ' ' :: .char '#' :: kept)) =
      stripComment (Text.trimSymbols rest) := by
  have hplain : ∀ more, (Text.trimSymbols rest ++ more).head?.any isQuote = false := by
    obtain ⟨first, value, hcons⟩ := List.exists_cons_of_ne_nil hne
    rw [hcons] at hvalue ⊢
    simpa using hvalue
  have hown := hplain []
  rw [List.append_nil] at hown
  rw [stripComment, stripComment, hplain, hown, if_neg Bool.false_ne_true, if_neg Bool.false_ne_true]
  cases hcut : Text.cutAt? (marks " #") (Text.trimSymbols rest) with
  | some parts =>
    rw [Text.cutAt?, Text.cutAtInto_append hcut _ (by simp [marks])]
  | none =>
    have hmore : Symbol.char '#' ∉ trail ++ [.char ' '] := by
      simpa using fun hin => absurd (htrail _ hin) (by decide)
    have hinside : ¬ [Symbol.char ' '] ++ [.char '#'] <:+: Text.trimSymbols rest := Text.cutAt?_eq_none_iff.mp hcut
    have hnone := Text.not_infix_append hinside hmore
    rw [← List.append_assoc] at hnone
    have hmark : Text.cutAt? (marks " #") (Text.trimSymbols rest ++ trail ++ .char ' ' :: .char '#' :: kept) =
        some (Text.trimSymbols rest ++ trail, kept) := Text.cutAtInto_mark hnone [] kept
    have htrim : Text.trimSymbols (Text.trimSymbols rest ++ trail) = Text.trimSymbols rest := by
      obtain ⟨hfirst, hlast⟩ := Text.ends_stripWhere isSpace rest
      exact (Text.stripWhere_concat_all htrail _).trans (Text.stripWhere_of_ends hfirst hlast)
    rw [← List.append_assoc, hmark]
    exact htrim

theorem plain_commented (hkey : IsKey key) (hline : Text.trimSymbols (symbols line) = key ++ (marks ": " ++ rest))
    (hvalue : ∀ s ∈ (Text.trimSymbols rest).head?, ¬ isQuote s) (comment : Octets) :
    statement (commented line comment) = statement line := by
  have hcontent : Text.trimSymbols (symbols line) ≠ [] := by simp [hline, marks]
  obtain ⟨trail, kept, htrail, hcommented⟩ := statement_commented hcontent comment
  have hne := trimSymbols_value_ne_nil hline
  obtain ⟨more, kept', hmore, htrim⟩ := trimSymbols_commented hne htrail kept
  have hvalues : valueOf (rest ++ (trail ++ .char ' ' :: .char '#' :: kept)) = valueOf rest := by
    rw [valueOf, htrim, stripComment_commented hvalue hne hmore, valueOf]
  rw [hcommented, statement_eq line, hline, List.append_assoc, List.append_assoc, ofContent_leaf hkey, hvalues,
    ofContent_leaf hkey]

/-- A value that starts with a quote keeps the comment, whatever quotes are taken off its ends. -/
theorem quoted_commented_ne {quote : Symbol} {inside : List Symbol} (hkey : IsKey key)
    (hline : Text.trimSymbols (symbols line) = key ++ (marks ": " ++ rest)) (hquote : isQuote quote)
    (hvalue : Text.trimSymbols rest = quote :: inside) (comment : Octets) :
    statement (commented line comment) ≠ statement line := by
  have hcontent : Text.trimSymbols (symbols line) ≠ [] := by simp [hline, marks]
  obtain ⟨trail, kept, htrail, hcommented⟩ := statement_commented hcontent comment
  have hne := trimSymbols_value_ne_nil hline
  obtain ⟨more, kept', hmore, htrim⟩ := trimSymbols_commented hne htrail kept
  have hkept : ∀ tail, stripComment (quote :: tail) = quote :: tail := by
    intro tail
    rw [stripComment, if_pos (by simpa using hquote)]
  rw [hcommented, statement_eq line, hline, List.append_assoc, List.append_assoc, ofContent_leaf hkey,
    ofContent_leaf hkey]
  intro hsame
  simp only [valueOf, htrim, hvalue, List.cons_append, hkept, List.isEmpty_cons, Bool.false_eq_true, if_false,
    Statement.leaf.injEq, true_and] at hsame
  have hfilter := congrArg (List.filter fun s => !isQuote s) hsame
  rw [Text.filter_stripWhere, Text.filter_stripWhere] at hfilter
  have hblank : isQuote (.char ' ') = false := by decide
  simp [List.filter_cons, hquote, hblank] at hfilter

end Kinds

theorem statement_commented_iff {line : Octets} {kind : LineKind} (hline : HasKind line kind) (comment : Octets) :
    statement (commented line comment) = statement line ↔ kind = .plain := by
  cases hline with
  | header hkey hline => simpa using header_commented_ne hkey hline comment
  | plain hkey hline hvalue => simpa using plain_commented hkey hline hvalue comment
  | quoted hkey hline hquote hvalue => simpa using quoted_commented_ne hkey hline hquote hvalue comment

section Files

variable {line line' : Octets} (before after : List Octets)

theorem statements_replace (hfits : fits line' = fits line) (hsame : statement line' = statement line) :
    ((before ++ line' :: after).takeWhile fits).map statement =
      ((before ++ line :: after).takeWhile fits).map statement := by
  induction before with
  | nil => cases h : fits line <;> simp [h, hfits, hsame]
  | cons first before ih => cases h : fits first <;> simp [h, ih]

/-- A file with another line in the place of one. -/
def replaced (line' : Octets) : Octets := [0x0a].intercalate (before ++ line' :: after)

variable {before after} {file : Octets}

theorem splitList_replaced (hfile : Text.splitList 0x0a file = before ++ line :: after) (hline : 0x0a ∉ line') :
    Text.splitList 0x0a (replaced before after line') = before ++ line' :: after := by
  have hothers : ∀ piece ∈ before ++ line :: after, 0x0a ∉ piece := fun piece hpiece =>
    Text.not_mem_of_mem_splitList (hfile ▸ hpiece)
  simp only [List.forall_mem_append, List.forall_mem_cons] at hothers
  refine Text.splitList_intercalate (by simp) ?_
  simp only [List.forall_mem_append, List.forall_mem_cons]
  exact ⟨hothers.1, hline, hothers.2.2⟩

/-- A file loads as before when a line is replaced by one that says the same. -/
theorem load_replaced (hfile : Text.splitList 0x0a file = before ++ line :: after) (hline : 0x0a ∉ line')
    (hfits : fits line' = fits line) (hsame : statement line' = statement line) (e : Environment) :
    load e (replaced before after line') = load e file := by
  have hleaves : leaves (replaced before after line') = leaves file := by
    rw [leaves, leaves, splitList_replaced hfile hline, hfile, statements_replace before after hfits hsame]
  rw [load_eq, load_eq, hleaves, splitList_replaced hfile hline, hfile]
  simp only [List.all_append, List.all_cons, hfits]

theorem fits_of_load {e : Environment} (hload : (load e file).2 = none) {piece : Octets}
    (hpiece : piece ∈ Text.splitList 0x0a file) : fits piece := by
  rw [load_eq] at hload
  have hlimit := (Option.or_eq_none_iff.mp hload).2
  split_ifs at hlimit with hall
  exact List.all_eq_true.mp hall piece hpiece

end Files

theorem not_mem_commented {line comment : Octets} (hline : 0x0a ∉ line) (hcomment : 0x0a ∉ comment) :
    0x0a ∉ commented line comment := by
  have hmark : (0x0a : UInt8) ∉ ofString " #" := by decide
  simp [commented, hline, hmark, hcomment]

/-- A comment behind a line of a settings file says nothing exactly when the line is a plain leaf.
There a file that loads gives the same environment with the comment exactly when the line with the
comment is not too long. -/
theorem comment_ignored_iff {line comment : Octets} {kind : LineKind} (hline : HasKind line kind)
    (hcomment : 0x0a ∉ comment) :
    (statement (commented line comment) = statement line ↔ kind = .plain) ∧
      (kind = .plain → ∀ {file : Octets} {before after : List Octets} (e : Environment),
        Text.splitList 0x0a file = before ++ line :: after → (load e file).2 = none →
        (load e (replaced before after (commented line comment)) = load e file ↔ fits (commented line comment))) := by
  refine ⟨statement_commented_iff hline comment, fun hkind file before after e hfile hload => ?_⟩
  have hmem : line ∈ Text.splitList 0x0a file := hfile ▸ by simp
  have honeLine := not_mem_commented (Text.not_mem_of_mem_splitList hmem) hcomment
  constructor
  · intro hsame
    refine fits_of_load (hsame ▸ hload) ?_
    rw [splitList_replaced hfile honeLine]
    simp
  · intro hfits
    refine load_replaced hfile honeLine ?_ ((statement_commented_iff hline comment).mpr hkind) e
    rw [hfits, fits_of_load hload hmem]

namespace Site

def mapLine : Octets := ofString "map:"

def zoomLine : Octets := ofString "  zoom: 15"

def hostLine : Octets := ofString "host: \"h\""

def file : Octets := ofString "map:\n  zoom: 15\nhost: \"h\"\n"

theorem zoomLine_plain : HasKind zoomLine .plain :=
  @HasKind.plain _ (marks "zoom") (marks "15") ⟨by decide, by decide⟩ (by decide +kernel) (by decide)

/-- A comment that itself looks like a comment and a heading. -/
theorem zoom_comment_ignored : HasKind zoomLine .plain ∧ (load {} file).2 = none ∧
    load {} (ofString "map:\n  zoom: 15 # near # far:\nhost: \"h\"\n") = load {} file := by
  have hload : (load {} file).2 = none := by decide +kernel
  have hfile : Text.splitList 0x0a file = [mapLine] ++ zoomLine :: [hostLine, []] := by decide +kernel
  have hcommented : replaced [mapLine] [hostLine, []] (commented zoomLine (ofString " near # far:")) =
      ofString "map:\n  zoom: 15 # near # far:\nhost: \"h\"\n" := by decide +kernel
  have hcomment : 0x0a ∉ ofString " near # far:" := by decide
  have hignored := (comment_ignored_iff zoomLine_plain hcomment).2 rfl {} hfile hload
  rw [hcommented] at hignored
  exact ⟨zoomLine_plain, hload, hignored.mpr (by decide +kernel)⟩

/-- Behind a heading the comment becomes a value, and what stood in the section stands outside. Behind
a value in quotes it becomes part of the value. -/
theorem comments_change_environment :
    HasKind mapLine .header ∧ HasKind hostLine .quoted ∧
      (load {} file).1 = ⟨[("MAP_ZOOM", ofString "15"), ("HOST", ofString "h")]⟩ ∧
      (load {} ([0x0a].intercalate
        [commented mapLine (ofString " site"), zoomLine, commented hostLine (ofString " name"), []])).1 =
        ⟨[("MAP", ofString "# site"), ("ZOOM", ofString "15"), ("HOST", ofString "h\" # name")]⟩ := by
  have hmap : HasKind mapLine .header := @HasKind.header _ (marks "map") ⟨by decide, by decide⟩ (by decide +kernel)
  have hhost : HasKind hostLine .quoted :=
    @HasKind.quoted _ (marks "host") (marks "\"h\"") (marks "h") (.char '"') ⟨by decide, by decide⟩ (by decide +kernel)
      (by decide) (by decide)
  exact ⟨hmap, hhost, by decide +kernel, by decide +kernel⟩

end Site

end BinFleet.Settings
