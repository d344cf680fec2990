import BinFleet.Json.Reader
import BinFleet.Json.Text
import BinFleet.Proofs.Text

namespace BinFleet.Json

/-- The piece stands for the character. -/
inductive Piece.Spells : Piece → Char → Prop where
  | char (c : Char) : Spells (.char c) c
  | code (c : Char) : Spells (.code c.toNat) c

theorem piecesInto_plain {c : Char} (h : c ≠ '\\') (found : List Piece) (rest : List Char) :
    piecesInto found (c :: rest) = piecesInto (.char c :: found) rest := by
  rw [piecesInto.eq_def]
  split <;> simp_all

theorem hexCode_digits {n : Nat} (h : n < 65536) :
    hexCode (Text.Hex.digit (n / 16 / 16 / 16 % 16)) (Text.Hex.digit (n / 16 / 16 % 16))
      (Text.Hex.digit (n / 16 % 16)) (Text.Hex.digit (n % 16)) = n := by
  have hdigit : ∀ k : Nat, Text.Hex.value? (Text.Hex.digit (k % 16)) = some (k % 16) :=
    fun k => Text.Hex.value?_digit (Nat.mod_lt _ (by decide))
  simp only [hexCode, List.foldl_cons, List.foldl_nil, hdigit, Option.getD_some]
  omega

theorem piecesInto_unicodeEscape {c : Char} (h : c.toNat < 65536) (found : List Piece) (rest : List Char) :
    piecesInto found (unicodeEscape c ++ rest) = piecesInto (.code c.toNat :: found) rest := by
  rw [unicodeEscape, Text.Hex.digits_four]
  simp only [List.cons_append, List.nil_append, piecesInto, hexCode_digits h]

/-- Every character is written as one piece. -/
theorem piecesInto_escapeChar (e : Escaping) (c : Char) (found : List Piece) (rest : List Char) :
    ∃ p, Piece.Spells p c ∧ piecesInto found (escapeChar e c ++ rest) = piecesInto (p :: found) rest := by
  unfold escapeChar
  split
  iterate 7 exact ⟨_, .char _, rfl⟩
  · rename_i hbackslash _ _ _ _ _
    split_ifs with hcontrol hweb
    · have hsmall : c.toNat < 65536 := by
        rcases hcontrol with hlow | rfl | rfl
        · omega
        · decide
        · decide
      exact ⟨_, .code c, piecesInto_unicodeEscape hsmall found rest⟩
    · have hsmall : c.toNat < 65536 := by
        rcases hweb.2 with rfl | rfl | rfl <;> decide
      exact ⟨_, .code c, piecesInto_unicodeEscape hsmall found rest⟩
    · exact ⟨_, .char c, piecesInto_plain (fun hc => hbackslash hc) found rest⟩

theorem piecesInto_escape (e : Escaping) (cs : List Char) (found : List Piece) :
    ∃ ps, List.Forall₂ Piece.Spells ps cs ∧
      piecesInto found (cs.flatMap (escapeChar e)) = found.reverse ++ ps := by
  induction cs generalizing found with
  | nil => exact ⟨[], .nil, by simp [piecesInto]⟩
  | cons c cs ih =>
    obtain ⟨p, hp, hfirst⟩ := piecesInto_escapeChar e c found (cs.flatMap (escapeChar e))
    obtain ⟨ps, hps, hrest⟩ := ih (p :: found)
    refine ⟨p :: ps, .cons hp hps, ?_⟩
    rw [List.flatMap_cons, hfirst, hrest]
    simp

/-- Characters are no halves of pairs. -/
theorem not_half (c : Char) : isHighHalf c.toNat = false ∧ isLowHalf c.toNat = false := by
  have hvalid : c.toNat.isValidChar := c.valid
  simp only [Nat.isValidChar] at hvalid
  simp only [isHighHalf, isLowHalf, Bool.and_eq_false_iff, decide_eq_false_iff_not]
  omega

theorem joinInto_spelled {p : Piece} {c : Char} (h : Piece.Spells p c) (found : List Char) (ps : List Piece) :
    joinInto found (p :: ps) = joinInto (c :: found) ps := by
  obtain ⟨hhigh, hlow⟩ := not_half c
  have hcode : ofCode c.toNat = c := by
    simp [ofCode, hhigh, hlow, Char.ofNat_toNat]
  cases h with
  | char => rw [joinInto]
  | code =>
    cases ps with
    | nil => simp [joinInto, hcode]
    | cons q ps => cases q <;> simp [joinInto, hhigh, hcode]

theorem joinInto_spelledAll {ps : List Piece} {cs : List Char} (h : List.Forall₂ Piece.Spells ps cs)
    (found : List Char) : joinInto found ps = found.reverse ++ cs := by
  induction h generalizing found with
  | nil => simp [joinInto]
  | cons hp _ ih =>
    rw [joinInto_spelled hp, ih]
    simp

theorem unescape_escape (e : Escaping) (s : String) : unescape (escape e s) = s := by
  obtain ⟨ps, hps, hpieces⟩ := piecesInto_escape e s.toList []
  rw [unescape, escape, String.toList_ofList, unescapeChars, hpieces, List.reverse_nil, List.nil_append,
    joinInto_spelledAll hps, List.reverse_nil, List.nil_append, String.ofList_toList]

/-- What may stand between the quotes of a string. -/
inductive Body : List Char → Prop where
  | nil : Body []
  | plain {c : Char} {rest : List Char} (hquote : c ≠ '"') (hbackslash : c ≠ '\\') (hcontrol : 0x20 ≤ c.toNat)
      (h : Body rest) : Body (c :: rest)
  | letter {c : Char} {rest : List Char} (hc : c ∈ ['b', 'f', 'n', 'r', 't', '\\', '/', '"']) (h : Body rest) :
      Body ('\\' :: c :: rest)
  | unit {a b c d : Char} {rest : List Char} (hdigits : ∀ x ∈ [a, b, c, d], (Text.Hex.value? x).isSome)
      (h : Body rest) : Body ('\\' :: 'u' :: a :: b :: c :: d :: rest)

theorem Body.unicodeEscape (c : Char) {rest : List Char} (h : Body rest) : Body (unicodeEscape c ++ rest) := by
  rw [Json.unicodeEscape, Text.Hex.digits_four]
  refine .unit ?_ h
  have hdigit : ∀ k : Nat, (Text.Hex.value? (Text.Hex.digit (k % 16))).isSome := by
    intro k
    rw [Text.Hex.value?_digit (Nat.mod_lt _ (by decide))]
    rfl
  simp only [List.mem_cons, List.not_mem_nil, or_false]
  rintro x (rfl | rfl | rfl | rfl) <;> exact hdigit _

theorem Body.escapeChar (e : Escaping) (c : Char) {rest : List Char} (h : Body rest) :
    Body (escapeChar e c ++ rest) := by
  unfold Json.escapeChar
  split
  iterate 7 exact .letter (by decide) h
  · rename_i hquote hbackslash _ _ _ _ _
    split_ifs with hcontrol hweb
    · exact .unicodeEscape c h
    · exact .unicodeEscape c h
    · rw [not_or] at hcontrol
      exact .plain (fun hc => hquote hc) (fun hc => hbackslash hc) (Nat.le_of_not_lt hcontrol.1) h

theorem Body.escape (e : Escaping) (s : String) : Body (escape e s).toList := by
  rw [Json.escape, String.toList_ofList]
  induction s.toList with
  | nil => exact .nil
  | cons c cs ih => exact Body.escapeChar e c ih

namespace Reader

theorem run_next {r r' : Reader} {c : Char} (h : r.step c = .next r') (rest : List Char) :
    run r (c :: rest) = run r' rest := by
  rw [run, h]

theorem step_hex {x : Char} (hx : (Text.Hex.value? x).isSome) (isKey : Bool) (missing : Nat) (body : List Char)
    (frames : List Frame) (depth : Nat) :
    step ⟨.hex isKey (missing + 2) body, frames, depth⟩ x = .next ⟨.hex isKey (missing + 1) (x :: body), frames, depth⟩ := by
  have hsome : ¬ (Text.Hex.value? x).isNone = true := by
    rw [← Option.not_isSome, hx]
    decide
  simp only [step, if_neg hsome, if_neg (show ¬ missing + 2 ≤ 1 by omega)]
  rfl

theorem step_lastHex {x : Char} (hx : (Text.Hex.value? x).isSome) (isKey : Bool) (body : List Char)
    (frames : List Frame) (depth : Nat) :
    step ⟨.hex isKey 1 body, frames, depth⟩ x = .next ⟨.string isKey (x :: body), frames, depth⟩ := by
  have hsome : ¬ (Text.Hex.value? x).isNone = true := by
    rw [← Option.not_isSome, hx]
    decide
  simp only [step, if_neg hsome, if_pos (Nat.le_refl 1)]

theorem run_body {text : List Char} (h : Body text) (isKey : Bool) (body : List Char) (frames : List Frame)
    (depth : Nat) (rest : List Char) :
    run ⟨.string isKey body, frames, depth⟩ (text ++ rest) =
      run ⟨.string isKey (text.reverse ++ body), frames, depth⟩ rest := by
  induction h generalizing body with
  | nil => rfl
  | @plain c text hquote hbackslash hcontrol _ ih =>
    have hstep : step ⟨.string isKey body, frames, depth⟩ c = .next ⟨.string isKey (c :: body), frames, depth⟩ := by
      simp only [step, if_neg hquote, if_neg hbackslash, if_neg (Nat.not_lt.mpr hcontrol)]
    rw [List.cons_append, run_next hstep, ih]
    simp
  | @letter c text hc _ ih =>
    have hu : c ≠ 'u' := by
      rintro rfl
      exact absurd hc (by decide)
    have hstep : step ⟨.escape isKey ('\\' :: body), frames, depth⟩ c =
        .next ⟨.string isKey (c :: '\\' :: body), frames, depth⟩ := by
      simp only [step, if_neg hu, if_pos hc]
    rw [List.cons_append, List.cons_append, run_next rfl, run_next hstep, ih]
    simp
  | @unit a b c d text hdigits _ ih =>
    simp only [List.cons_append]
    rw [run_next rfl, run_next rfl, run_next (step_hex (hdigits a (by simp)) ..),
      run_next (step_hex (hdigits b (by simp)) ..), run_next (step_hex (hdigits c (by simp)) ..),
      run_next (step_lastHex (hdigits d (by simp)) ..), ih]
    simp

/-- The end of a text goes on where the open containers say. -/
def resume (j : Json) (frames : List Frame) (depth : Nat) (rest : List Char) : Outcome :=
  match complete j frames depth with
  | some r => run r rest
  | none => .value j rest

theorem run_finish {r : Reader} {c : Char} {j : Json} {frames : List Frame} {depth : Nat}
    (h : r.step c = finish j frames depth) (rest : List Char) : run r (c :: rest) = resume j frames depth rest := by
  rw [run, h, finish, resume]
  cases complete j frames depth <;> rfl

theorem run_string {body : String} (h : Body body.toList) (frames : List Frame) (depth : Nat) (rest : List Char) :
    run ⟨.string false [], frames, depth⟩ (body.toList ++ '"' :: rest) = resume (.string body) frames depth rest := by
  have hend : step ⟨.string false (body.toList.reverse ++ []), frames, depth⟩ '"' = finish (.string body) frames depth := by
    simp [step, endString]
  rw [run_body h, run_finish hend]

theorem run_key {key : String} (h : Body key.toList) (fields : List (String × Json)) (outer : List Frame) (depth : Nat)
    (rest : List Char) :
    run ⟨.string true [], .object fields :: outer, depth⟩ (key.toList ++ '"' :: ':' :: rest) =
      run ⟨.value, .member fields key :: outer, depth⟩ rest := by
  have hend : step ⟨.string true (key.toList.reverse ++ []), .object fields :: outer, depth⟩ '"' =
      .next ⟨.colon, .member fields key :: outer, depth⟩ := by
    simp [step, endString]
  rw [run_body h, run_next hend, run_next rfl]

end Reader

/-- The rest of a number, of which some part has been read. -/
def numeralFrom (part : NumberPart) : List Char → Bool
  | [] => Reader.mayEnd part
  | c :: rest =>
    match Reader.numberPart? part c with
    | some (some part) => numeralFrom part rest
    | _ => false

/-- A text that is a number. -/
def isNumeral : List Char → Bool
  | [] => false
  | c :: rest =>
    if c = '-' then numeralFrom .sign rest
    else if c = '0' then numeralFrom .zero rest
    else isDigit c && numeralFrom .whole rest

/-- What follows a value: a mark of the container around it, or the end of everything. -/
def Ends : List Frame → List Char → Prop
  | [], rest => rest = []
  | .array _ :: _, rest => ∃ c more, rest = c :: more ∧ (c = ',' ∨ c = ']')
  | .member _ _ :: _, rest => ∃ c more, rest = c :: more ∧ (c = ',' ∨ c = '\x7d')
  | .object _ :: _, _ => False

namespace Reader

theorem numberPart?_mark {part : NumberPart} (h : mayEnd part = true) {c : Char}
    (hc : c = ',' ∨ c = ']' ∨ c = '\x7d') : numberPart? part c = none := by
  rcases hc with rfl | rfl | rfl <;> cases part <;> first | rfl | simp [mayEnd] at h

/-- A number ends where no part of it can go on. -/
theorem run_numberEnd {part : NumberPart} (h : mayEnd part = true) (read : List Char) {frames : List Frame}
    (depth : Nat) {rest : List Char} (hrest : Ends frames rest) :
    run ⟨.number part read, frames, depth⟩ rest = resume (numberValue read) frames depth rest := by
  match frames, hrest with
  | [], hrest =>
    obtain rfl : rest = [] := hrest
    exact if_pos h
  | .array items :: outer, ⟨c, more, hc, hmark⟩ =>
    subst hc
    have hnone : numberPart? part c = none := numberPart?_mark h (by tauto)
    have hstep : step ⟨.number part read, .array items :: outer, depth⟩ c =
        step ⟨.after, .array (numberValue read :: items) :: outer, depth⟩ c := by
      simp only [step, hnone, complete]
    rcases hmark with rfl | rfl
    · rw [run_next hstep]
      rfl
    · rw [run_finish hstep]
      exact (run_finish rfl more).symm
  | .member fields key :: outer, ⟨c, more, hc, hmark⟩ =>
    subst hc
    have hnone : numberPart? part c = none := numberPart?_mark h (by tauto)
    have hstep : step ⟨.number part read, .member fields key :: outer, depth⟩ c =
        step ⟨.after, .object ((key, numberValue read) :: fields) :: outer, depth⟩ c := by
      simp only [step, hnone, complete]
    rcases hmark with rfl | rfl
    · rw [run_next hstep]
      rfl
    · rw [run_finish hstep]
      exact (run_finish rfl more).symm

theorem run_numeralFrom {part : NumberPart} {text : List Char} (h : numeralFrom part text = true) (read : List Char)
    {frames : List Frame} (depth : Nat) {rest : List Char} (hrest : Ends frames rest) :
    run ⟨.number part read, frames, depth⟩ (text ++ rest) =
      resume (.number (String.ofList (read.reverse ++ text))) frames depth rest := by
  induction text generalizing part read with
  | nil =>
    rw [numeralFrom] at h
    rw [List.nil_append, List.append_nil]
    exact run_numberEnd h read depth hrest
  | cons c text ih =>
    rw [numeralFrom] at h
    split at h
    · rename_i part' hpart
      have hstep : step ⟨.number part read, frames, depth⟩ c = .next ⟨.number part' (c :: read), frames, depth⟩ := by
        simp only [step, hpart]
      rw [List.cons_append, run_next hstep, ih h]
      simp
    · simp at h

theorem ne_of_digit {c x : Char} (hc : isDigit c = true) (hx : isDigit x = false) : c ≠ x := by
  rintro rfl
  simp [hx] at hc

theorem not_space_of_digit {c : Char} (h : isDigit c = true) : isSpace c = false := by
  have hne : ∀ x : Char, isDigit x = false → c ≠ x := fun x => ne_of_digit h
  simp [isSpace, hne ' ' rfl, hne '\t' rfl, hne '\r' rfl, hne '\n' rfl]

theorem step_digit {c : Char} (hdigit : isDigit c = true) (hzero : c ≠ '0') (frames : List Frame) (depth : Nat) :
    step ⟨.value, frames, depth⟩ c = .next ⟨.number .whole [c], frames, depth⟩ := by
  rw [step]
  simp only [not_space_of_digit hdigit, Bool.false_eq_true, if_false]
  rw [beginValue.eq_def]
  split
  iterate 8 first | exact absurd rfl (ne_of_digit hdigit rfl) | exact absurd rfl hzero
  · exact if_pos hdigit

theorem run_numeral {text : String} (h : isNumeral text.toList = true) {frames : List Frame} (depth : Nat)
    {rest : List Char} (hrest : Ends frames rest) :
    run ⟨.value, frames, depth⟩ (text.toList ++ rest) = resume (.number text) frames depth rest := by
  have htext : ∀ c cs, text.toList = c :: cs → String.ofList ([c].reverse ++ cs) = text := by
    intro c cs hcs
    rw [List.reverse_singleton, List.singleton_append, ← hcs, String.ofList_toList]
  cases hcs : text.toList with
  | nil => simp [hcs, isNumeral] at h
  | cons c cs =>
    rw [hcs, isNumeral] at h
    split_ifs at h with hminus hzero
    · subst hminus
      rw [List.cons_append, run_next rfl, run_numeralFrom h _ _ hrest, htext _ _ hcs]
    · subst hzero
      rw [List.cons_append, run_next rfl, run_numeralFrom h _ _ hrest, htext _ _ hcs]
    · rw [Bool.and_eq_true] at h
      have hstep : step ⟨.value, frames, depth⟩ c = .next ⟨.number .whole [c], frames, depth⟩ :=
        step_digit h.1 hzero frames depth
      rw [List.cons_append, run_next hstep, run_numeralFrom h.2 _ _ hrest, htext _ _ hcs]

end Reader

mutual

/-- Well-formed parts in containers nested to a limit at most. -/
def Fits : Json → Nat → Prop
  | .null, _ => True
  | .bool _, _ => True
  | .number text, _ => isNumeral text.toList = true
  | .string body, _ => Body body.toList
  | .array items, n => 0 < n ∧ FitItems items (n - 1)
  | .object fields, n => 0 < n ∧ FitFields fields (n - 1)

def FitItems : List Json → Nat → Prop
  | [], _ => True
  | j :: rest, n => Fits j n ∧ FitItems rest n

def FitFields : List (String × Json) → Nat → Prop
  | [], _ => True
  | (k, v) :: rest, n => Body k.toList ∧ Fits v n ∧ FitFields rest n

end

namespace Reader

theorem step_array {depth : Nat} (h : 0 < nestingLimit - depth) (frames : List Frame) :
    step ⟨.value, frames, depth⟩ '[' = .next ⟨.firstItem, .array [] :: frames, depth + 1⟩ :=
  if_neg (show ¬ nestingLimit ≤ depth by omega)

theorem step_object {depth : Nat} (h : 0 < nestingLimit - depth) (frames : List Frame) :
    step ⟨.value, frames, depth⟩ '\x7b' = .next ⟨.firstKey, .object [] :: frames, depth + 1⟩ :=
  if_neg (show ¬ nestingLimit ≤ depth by omega)

/-- A document starts with a character that begins a value. -/
theorem begins {j : Json} {depth : Nat} (h : Fits j (nestingLimit - depth)) (frames : List Frame) :
    ∃ c cs r, j.render = c :: cs ∧ isSpace c = false ∧ c ≠ ']' ∧ step ⟨.value, frames, depth⟩ c = .next r := by
  cases j with
  | null => exact ⟨_, _, _, rfl, rfl, by decide, rfl⟩
  | bool b => cases b <;> exact ⟨_, _, _, rfl, rfl, by decide, rfl⟩
  | string body => exact ⟨_, _, _, rfl, rfl, by decide, rfl⟩
  | array items =>
    rw [Fits] at h
    exact ⟨_, _, _, rfl, rfl, by decide, step_array h.1 frames⟩
  | object fields =>
    rw [Fits] at h
    exact ⟨_, _, _, rfl, rfl, by decide, step_object h.1 frames⟩
  | number text =>
    rw [Fits] at h
    cases hcs : text.toList with
    | nil => simp [hcs, isNumeral] at h
    | cons c cs =>
      rw [hcs, isNumeral] at h
      refine ⟨c, cs, ?_⟩
      split_ifs at h with hminus hzero
      · subst hminus
        exact ⟨_, hcs, rfl, by decide, rfl⟩
      · subst hzero
        exact ⟨_, hcs, rfl, by decide, rfl⟩
      · rw [Bool.and_eq_true] at h
        exact ⟨_, hcs, not_space_of_digit h.1, ne_of_digit h.1 rfl, step_digit h.1 hzero frames depth⟩

theorem run_firstItem {j : Json} {depth : Nat} (h : Fits j (nestingLimit - depth)) (frames : List Frame)
    (rest : List Char) :
    run ⟨.firstItem, frames, depth⟩ (j.render ++ rest) = run ⟨.value, frames, depth⟩ (j.render ++ rest) := by
  obtain ⟨c, cs, r, hcs, hspace, hbracket, hstep⟩ := begins h frames
  have hfirst : step ⟨.firstItem, frames, depth⟩ c = .next r := by
    rw [← hstep]
    simp only [step, hspace, if_neg hbracket]
    rfl
  rw [hcs, List.cons_append, run_next hfirst, run_next hstep]

theorem renderItems_cons_cons (j k : Json) (items : List Json) :
    renderItems (j :: k :: items) = j.render ++ ',' :: renderItems (k :: items) := by
  simp [renderItems]

theorem renderFields_cons_cons (k : String) (v : Json) (next : String × Json) (fields : List (String × Json)) :
    renderFields ((k, v) :: next :: fields) =
      '"' :: (k.toList ++ '"' :: ':' :: (v.render ++ ',' :: renderFields (next :: fields))) := by
  simp [renderFields]

theorem renderItems_cons (j : Json) (items : List Json) : ∃ more, renderItems (j :: items) = j.render ++ more := by
  cases items with
  | nil => exact ⟨[], by rw [renderItems, List.append_nil]⟩
  | cons k items => exact ⟨_, renderItems_cons_cons j k items⟩

theorem ends_item (read : List Json) (outer : List Frame) (rest : List Char) :
    Ends (.array read :: outer) (',' :: rest) := ⟨_, _, rfl, .inl rfl⟩

theorem ends_items (read : List Json) (outer : List Frame) (rest : List Char) :
    Ends (.array read :: outer) (']' :: rest) := ⟨_, _, rfl, .inr rfl⟩

theorem ends_field (read : List (String × Json)) (key : String) (outer : List Frame) (rest : List Char) :
    Ends (.member read key :: outer) (',' :: rest) := ⟨_, _, rfl, .inl rfl⟩

theorem ends_fields (read : List (String × Json)) (key : String) (outer : List Frame) (rest : List Char) :
    Ends (.member read key :: outer) ('\x7d' :: rest) := ⟨_, _, rfl, .inr rfl⟩

/-- The document is read back as a whole, whatever stands around it. -/
def ReadsBack (j : Json) : Prop :=
  ∀ ⦃frames : List Frame⦄ ⦃depth : Nat⦄ ⦃rest : List Char⦄, Fits j (nestingLimit - depth) → Ends frames rest →
    run ⟨.value, frames, depth⟩ (j.render ++ rest) = resume j frames depth rest

theorem run_items (j : Json) (items read : List Json) (hback : ∀ k ∈ j :: items, ReadsBack k) (outer : List Frame)
    {depth : Nat} (rest : List Char) (h : FitItems (j :: items) (nestingLimit - (depth + 1))) :
    run ⟨.value, .array read :: outer, depth + 1⟩ (renderItems (j :: items) ++ ']' :: rest) =
      resume (.array (read.reverse ++ j :: items)) outer depth rest := by
  induction items generalizing j read with
  | nil =>
    rw [FitItems] at h
    rw [renderItems, hback j List.mem_cons_self h.1 (ends_items read outer rest), List.append_cons,
      ← List.reverse_cons, List.append_nil]
    exact run_finish rfl rest
  | cons k items ih =>
    rw [FitItems] at h
    have hitems := ih k (j :: read) (fun x hx => hback x (List.mem_cons_of_mem j hx)) h.2
    rw [List.reverse_cons, ← List.append_cons] at hitems
    have hcomma : step ⟨.after, .array (j :: read) :: outer, depth + 1⟩ ',' =
        .next ⟨.value, .array (j :: read) :: outer, depth + 1⟩ := rfl
    rw [renderItems_cons_cons, List.append_assoc, List.cons_append,
      hback j List.mem_cons_self h.1 (ends_item read outer _), ← hitems]
    exact run_next hcomma _

theorem run_fields (field : String × Json) (fields read : List (String × Json))
    (hback : ∀ f ∈ field :: fields, ReadsBack f.2) {mode : Mode} (hmode : mode = .firstKey ∨ mode = .key)
    (outer : List Frame) {depth : Nat} (rest : List Char)
    (h : FitFields (field :: fields) (nestingLimit - (depth + 1))) :
    run ⟨mode, .object read :: outer, depth + 1⟩ (renderFields (field :: fields) ++ '\x7d' :: rest) =
      resume (.object (read.reverse ++ field :: fields)) outer depth rest := by
  induction fields generalizing field read mode with
  | nil =>
    obtain ⟨k, v⟩ := field
    rw [FitFields] at h
    have hquote : step ⟨mode, .object read :: outer, depth + 1⟩ '"' =
        .next ⟨.string true [], .object read :: outer, depth + 1⟩ := by
      rcases hmode with rfl | rfl <;> rfl
    rw [renderFields]
    simp only [List.cons_append, List.append_assoc]
    rw [run_next hquote, run_key h.1, hback (k, v) List.mem_cons_self h.2.1 (ends_fields read k outer rest),
      List.append_cons, ← List.reverse_cons, List.append_nil]
    exact run_finish rfl rest
  | cons next fields ih =>
    obtain ⟨k, v⟩ := field
    rw [FitFields] at h
    have hquote : step ⟨mode, .object read :: outer, depth + 1⟩ '"' =
        .next ⟨.string true [], .object read :: outer, depth + 1⟩ := by
      rcases hmode with rfl | rfl <;> rfl
    have hfields := ih next ((k, v) :: read) (fun x hx => hback x (List.mem_cons_of_mem _ hx)) (.inr rfl) h.2.2
    rw [List.reverse_cons, ← List.append_cons] at hfields
    have hcomma : step ⟨.after, .object ((k, v) :: read) :: outer, depth + 1⟩ ',' =
        .next ⟨.key, .object ((k, v) :: read) :: outer, depth + 1⟩ := rfl
    rw [renderFields_cons_cons]
    simp only [List.cons_append, List.append_assoc]
    rw [run_next hquote, run_key h.1, hback (k, v) List.mem_cons_self h.2.1 (ends_field read k outer _), ← hfields]
    exact run_next hcomma _

theorem sizeOf_field {field : String × Json} {fields : List (String × Json)} (h : field ∈ fields) :
    sizeOf field.2 < sizeOf (Json.object fields) := by
  have hlist := List.sizeOf_lt_of_mem h
  obtain ⟨k, v⟩ := field
  simp only [Prod.mk.sizeOf_spec] at hlist
  simp only [Json.object.sizeOf_spec]
  omega

theorem sizeOf_item {j : Json} {items : List Json} (h : j ∈ items) : sizeOf j < sizeOf (Json.array items) := by
  have hlist := List.sizeOf_lt_of_mem h
  simp only [Json.array.sizeOf_spec]
  omega

theorem run_render (j : Json) : ReadsBack j := by
  induction hsize : sizeOf j using Nat.strongRecOn generalizing j with
  | ind n ih =>
  subst hsize
  intro frames depth rest h hrest
  match j with
  | .null => exact run_finish rfl rest
  | .bool true => exact run_finish rfl rest
  | .bool false => exact run_finish rfl rest
  | .number text =>
    rw [Fits] at h
    exact run_numeral h depth hrest
  | .string body =>
    rw [Fits] at h
    rw [render, List.cons_append, List.append_assoc, run_next rfl]
    exact run_string h frames depth rest
  | .array [] =>
    rw [Fits] at h
    rw [render, List.cons_append, List.append_assoc, run_next (step_array h.1 frames)]
    exact run_finish rfl rest
  | .array (j :: items) =>
    rw [Fits, Nat.sub_sub] at h
    rw [render, List.cons_append, List.append_assoc, run_next (step_array h.1 frames)]
    have hitems := run_items j items [] (fun k hk => ih _ (sizeOf_item hk) k rfl) frames rest h.2
    obtain ⟨more, hmore⟩ := renderItems_cons j items
    rw [hmore, List.append_assoc] at hitems ⊢
    rw [FitItems] at h
    exact (run_firstItem h.2.1 _ _).trans hitems
  | .object [] =>
    rw [Fits] at h
    rw [render, List.cons_append, List.append_assoc, run_next (step_object h.1 frames)]
    exact run_finish rfl rest
  | .object (field :: fields) =>
    rw [Fits, Nat.sub_sub] at h
    rw [render, List.cons_append, List.append_assoc, run_next (step_object h.1 frames)]
    exact run_fields field fields [] (fun f hf => ih _ (sizeOf_field hf) f.2 rfl) (.inl rfl) frames rest h.2

/-- Reading is the inverse of writing. -/
theorem read?_render {j : Json} (h : Fits j nestingLimit) : read? j.render = some j := by
  have hrun : run ⟨.value, [], 0⟩ (j.render ++ []) = resume j [] 0 [] := run_render j h rfl
  rw [List.append_nil] at hrun
  simp [read?, readFirst, start, hrun, resume, complete]

end Reader

end BinFleet.Json
