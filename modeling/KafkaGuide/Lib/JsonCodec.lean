import KafkaGuide.Lib.Dict
import KafkaGuide.Lib.Text
/-!
# JsonCodec — JSON values, their texts and the reader of texts

`dumps` writes a value as `json.dumps(v, ensure_ascii=False)` does, and `loads` reads any JSON text, with white space
between its tokens and every escape; what is written is read back (`loads_dumps`).  Numbers are of any type that has
texts of its own and a reader for them.
-/

/-- A decoded JSON text: an object is the list of its members. -/
inductive JsonCodec.Value (F : Type) where
  | null
  | bool (b : Bool)
  | num (x : F)
  | str (t : Text)
  | arr (vs : List (JsonCodec.Value F))
  | obj (members : List (Text × JsonCodec.Value F))

namespace JsonCodec

variable {F : Type}

def chr (c : Char) : CodePoint := .ofChar c

def lit (s : String) : List CodePoint := s.toList.map chr

/-! ## Words -/

/-- The characters of numbers and of the three literals. -/
def wordChar (c : Char) : Bool := c.isAlphanum || c = '+' || c = '-' || c = '.'

def isWord (p : CodePoint) : Bool := p.char?.any wordChar

/-- How numbers are written and read: `repr` and the number part of the scanner. -/
structure Numbers (F : Type) where
  text : F → List Char
  read : List Char → Option F
  text_ne_nil : ∀ x, text x ≠ []
  text_word : ∀ x, ∀ c ∈ text x, wordChar c = true
  text_ne_literal : ∀ x, text x ≠ "null".toList ∧ text x ≠ "true".toList ∧ text x ≠ "false".toList
  read_text : ∀ x, read (text x) = some x

/-! ## Writing -/

/-- `ESCAPE_DCT`. -/
def escape (p : CodePoint) : List CodePoint :=
  if p = chr '"' then lit "\\\""
  else if p = chr '\\' then lit "\\\\"
  else if p = chr '\n' then lit "\\n"
  else if p = chr '\r' then lit "\\r"
  else if p = chr '\t' then lit "\\t"
  else if p.val = 0x0c then lit "\\f"
  else if p.val = 0x08 then lit "\\b"
  else if p.val < 0x20 then lit "\\u00" ++ [chr (Nat.digitChar (p.val / 16)), chr (Nat.digitChar (p.val % 16))]
  else [p]

def dumpString (t : Text) : List CodePoint := chr '"' :: (t.points.flatMap escape ++ [chr '"'])

mutual
def dump (num : Numbers F) : Value F → List CodePoint
  | .null => lit "null"
  | .bool true => lit "true"
  | .bool false => lit "false"
  | .num x => (num.text x).map chr
  | .str t => dumpString t
  | .arr vs => chr '[' :: dumpItems num vs
  | .obj members => chr '\x7b' :: dumpMembers num members
/-- Items up to the closing bracket. -/
def dumpItems (num : Numbers F) : List (Value F) → List CodePoint
  | [] => [chr ']']
  | [v] => dump num v ++ [chr ']']
  | v :: w :: vs => dump num v ++ lit ", " ++ dumpItems num (w :: vs)
def dumpMembers (num : Numbers F) : List (Text × Value F) → List CodePoint
  | [] => [chr '\x7d']
  | [(k, v)] => dumpString k ++ lit ": " ++ dump num v ++ [chr '\x7d']
  | (k, v) :: m :: ms => dumpString k ++ lit ": " ++ dump num v ++ lit ", " ++ dumpMembers num (m :: ms)
end

/-- `json.dumps(v, ensure_ascii=False)`. -/
def dumps (num : Numbers F) (v : Value F) : Text := ⟨dump num v⟩

/-! ## Reading -/

def hexDigit? (p : CodePoint) : Option (Fin 16) :=
  if h : 0x30 ≤ p.val ∧ p.val ≤ 0x39 then some ⟨p.val - 0x30, by omega⟩
  else if h : 0x61 ≤ p.val ∧ p.val ≤ 0x66 then some ⟨p.val - 0x61 + 10, by omega⟩
  else if h : 0x41 ≤ p.val ∧ p.val ≤ 0x46 then some ⟨p.val - 0x41 + 10, by omega⟩
  else none

def hex4 (a b c d : CodePoint) : Option (Fin 0x10000) := do
  let a ← hexDigit? a
  let b ← hexDigit? b
  let c ← hexDigit? c
  let d ← hexDigit? d
  return ⟨((a.val * 16 + b.val) * 16 + c.val) * 16 + d.val, by omega⟩

/-- `BACKSLASH`. -/
def unescape (p : CodePoint) : Option CodePoint :=
  if p = chr '"' ∨ p = chr '\\' ∨ p = chr '/' then some p
  else if p = chr 'n' then some (chr '\n')
  else if p = chr 'r' then some (chr '\r')
  else if p = chr 't' then some (chr '\t')
  else if p = chr 'f' then some ⟨0x0c, by decide⟩
  else if p = chr 'b' then some ⟨0x08, by decide⟩
  else none

/-- A character of a string, or a `\u` escape. -/
inductive Piece where
  | plain (p : CodePoint)
  | unit (u : Fin 0x10000)

/-- The pieces of a string after its opening quote, and what follows the closing one. -/
def scanPieces : List CodePoint → Option (List Piece × List CodePoint)
  | [] => none
  | p :: cs =>
    if p = chr '"' then some ([], cs)
    else if p = chr '\\' then
      match cs with
      | [] => none
      | e :: cs =>
        if e = chr 'u' then
          match cs with
          | a :: b :: c :: d :: cs => (hex4 a b c d).bind fun u => (scanPieces cs).map fun r => (.unit u :: r.1, r.2)
          | _ => none
        else (unescape e).bind fun q => (scanPieces cs).map fun r => (.plain q :: r.1, r.2)
    else if p.val < 0x20 then none
    else (scanPieces cs).map fun r => (.plain p :: r.1, r.2)

/-- Two escapes in a row that are a surrogate pair are one code point. -/
def join : List Piece → List CodePoint
  | [] => []
  | .plain p :: ps => p :: join ps
  | [.unit u] => [⟨u.val, by omega⟩]
  | .unit u :: .plain p :: ps => ⟨u.val, by omega⟩ :: p :: join ps
  | .unit u :: .unit w :: ps =>
    if h : (0xd800 ≤ u.val ∧ u.val ≤ 0xdbff) ∧ 0xdc00 ≤ w.val ∧ w.val ≤ 0xdfff then
      ⟨0x10000 + (u.val - 0xd800) * 0x400 + (w.val - 0xdc00), by omega⟩ :: join ps
    else ⟨u.val, by omega⟩ :: join (.unit w :: ps)

def scanString (cs : List CodePoint) : Option (Text × List CodePoint) :=
  (scanPieces cs).map fun r => (⟨join r.1⟩, r.2)

def isSpace (p : CodePoint) : Bool := p = chr ' ' || p = chr '\t' || p = chr '\n' || p = chr '\r'

def skip (cs : List CodePoint) : List CodePoint := cs.dropWhile isSpace

/-- The rest after a given character. -/
def expect (c : Char) : List CodePoint → Option (List CodePoint)
  | [] => none
  | p :: cs => if p = chr c then some cs else none

/-- A literal or a number. -/
def wordValue (num : Numbers F) (word : List CodePoint) : Option (Value F) :=
  if word = [] then none
  else if word = lit "null" then some .null
  else if word = lit "true" then some (.bool true)
  else if word = lit "false" then some (.bool false)
  else (word.mapM CodePoint.char?).bind fun chars => (num.read chars).map .num

def scanWord (num : Numbers F) (cs : List CodePoint) : Option (Value F × List CodePoint) :=
  (wordValue num (cs.takeWhile isWord)).map fun v => (v, cs.dropWhile isWord)

/-- The name of a member, up to its value. -/
def scanName (cs : List CodePoint) : Option (Text × List CodePoint) :=
  (expect '"' cs).bind fun cs => (scanString cs).bind fun r => (expect ':' (skip r.2)).map fun rest => (r.1, skip rest)

mutual
/-- `scan_once`, with a bound on its calls. -/
def scan (num : Numbers F) : Nat → List CodePoint → Option (Value F × List CodePoint)
  | 0, _ => none
  | _ + 1, [] => none
  | n + 1, p :: cs =>
    if p = chr '"' then (scanString cs).map fun r => (.str r.1, r.2)
    else if p = chr '[' then
      match expect ']' (skip cs) with
      | some rest => some (.arr [], rest)
      | none => (scanItems num n (skip cs)).map fun r => (.arr r.1, r.2)
    else if p = chr '\x7b' then
      match expect '\x7d' (skip cs) with
      | some rest => some (.obj [], rest)
      | none => (scanMembers num n (skip cs)).map fun r => (.obj (Dict.update .empty r.1).entries, r.2)
    else scanWord num (p :: cs)
/-- The items of an array from the first on. -/
def scanItems (num : Numbers F) : Nat → List CodePoint → Option (List (Value F) × List CodePoint)
  | 0, _ => none
  | n + 1, cs => (scan num n cs).bind fun r =>
    match expect ']' (skip r.2) with
    | some rest => some ([r.1], rest)
    | none => (expect ',' (skip r.2)).bind fun rest =>
      (scanItems num n (skip rest)).map fun rs => (r.1 :: rs.1, rs.2)
/-- The members of an object from the first on. -/
def scanMembers (num : Numbers F) : Nat → List CodePoint → Option (List (Text × Value F) × List CodePoint)
  | 0, _ => none
  | n + 1, cs => (scanName cs).bind fun k => (scan num n k.2).bind fun r =>
    match expect '\x7d' (skip r.2) with
    | some rest => some ([(k.1, r.1)], rest)
    | none => (expect ',' (skip r.2)).bind fun rest =>
      (scanMembers num n (skip rest)).map fun rs => ((k.1, r.1) :: rs.1, rs.2)
end

/-- `json.loads(text)`. -/
def loads (num : Numbers F) (text : Text) : Option (Value F) :=
  (scan num (text.points.length + 1) (skip text.points)).bind fun r => if skip r.2 = [] then some r.1 else none

/-! ## What is written is read back -/

theorem char?_chr (c : Char) : (chr c).char? = some c := CodePoint.char?_ofChar c

theorem chr_injective {c c' : Char} (h : chr c = chr c') : c = c' := by
  have := congrArg CodePoint.char? h
  rwa [char?_chr, char?_chr, Option.some.injEq] at this

theorem isWord_chr (c : Char) : isWord (chr c) = wordChar c := by
  simp [isWord, char?_chr]

theorem chr_ne_of_word {c c' : Char} (h : wordChar c = true) (h' : wordChar c' = false) : chr c ≠ chr c' := by
  intro heq
  rw [chr_injective heq, h'] at h
  cases h

/-- No word goes on here. -/
def Ends (rest : List CodePoint) : Prop := ∀ p ps, rest = p :: ps → isWord p = false

theorem ends_nil : Ends [] := fun _ _ h => nomatch h

theorem ends_chr {c : Char} (h : wordChar c = false) (rest : List CodePoint) : Ends (chr c :: rest) := by
  rintro p ps heq
  cases heq
  rwa [isWord_chr]

theorem scanWord_append (num : Numbers F) {word : List Char} {rest : List CodePoint}
    (hword : ∀ c ∈ word, wordChar c = true) (hrest : Ends rest) :
    scanWord num (word.map chr ++ rest) = (wordValue num (word.map chr)).map fun v => (v, rest) := by
  have hchars : ∀ p ∈ word.map chr, isWord p = true := by
    intro p hp
    obtain ⟨c, hc, rfl⟩ := List.mem_map.1 hp
    rw [isWord_chr]
    exact hword c hc
  obtain ⟨htake, hdrop⟩ := Text.span_append hchars hrest
  rw [scanWord, htake, hdrop]

theorem chars_inj {cs cs' : List Char} (h : cs.map chr = cs'.map chr) : cs = cs' :=
  List.map_injective_iff.2 (fun _ _ => chr_injective) h

theorem wordValue_num (num : Numbers F) (x : F) : wordValue num ((num.text x).map chr) = some (.num x) := by
  obtain ⟨hnull, htrue, hfalse⟩ := num.text_ne_literal x
  have hchars : ((num.text x).map chr).mapM CodePoint.char? = some (num.text x) := Text.points_of_chars _
  unfold wordValue lit
  rw [if_neg (by simpa using num.text_ne_nil x), if_neg (fun h => hnull (chars_inj h)),
    if_neg (fun h => htrue (chars_inj h)), if_neg (fun h => hfalse (chars_inj h)), hchars, Option.bind_some,
    num.read_text]
  rfl

/-! ### Strings -/

/-- What the escape of a character is read as. -/
def pieceOf (p : CodePoint) : Piece :=
  if h : p.val < 0x20 ∧ p ≠ chr '\n' ∧ p ≠ chr '\r' ∧ p ≠ chr '\t' ∧ p.val ≠ 0x0c ∧ p.val ≠ 0x08 then
    .unit ⟨p.val, by omega⟩
  else .plain p

theorem scanPieces_quote (cs : List CodePoint) : scanPieces (chr '"' :: cs) = some ([], cs) := by
  rw [scanPieces.eq_def]
  exact if_pos rfl

theorem scanPieces_escape {e q : CodePoint} (he : e ≠ chr 'u') (hq : unescape e = some q) (cs : List CodePoint) :
    scanPieces (chr '\\' :: e :: cs) = (scanPieces cs).map fun r => (.plain q :: r.1, r.2) := by
  rw [scanPieces.eq_def (chr '\\' :: e :: cs)]
  dsimp only
  rw [if_neg (by decide), if_pos rfl, if_neg he, hq, Option.bind_some]

theorem hex4_digits : ∀ n : Fin 0x20, hex4 (chr '0') (chr '0') (chr (Nat.digitChar (n.val / 16)))
    (chr (Nat.digitChar (n.val % 16))) = some ⟨n.val, by omega⟩ := by
  decide

theorem scanPieces_unit {n : Nat} (hn : n < 0x20) (cs : List CodePoint) :
    scanPieces (lit "\\u00" ++ [chr (Nat.digitChar (n / 16)), chr (Nat.digitChar (n % 16))] ++ cs) =
      (scanPieces cs).map fun r => (.unit ⟨n, by omega⟩ :: r.1, r.2) := by
  have hhex := hex4_digits ⟨n, hn⟩
  dsimp only at hhex
  change scanPieces (chr '\\' :: chr 'u' :: chr '0' :: chr '0' :: chr (Nat.digitChar (n / 16)) ::
    chr (Nat.digitChar (n % 16)) :: cs) = _
  rw [scanPieces.eq_def (chr '\\' :: _)]
  dsimp only
  rw [if_neg (by decide), if_pos rfl, if_pos rfl, hhex, Option.bind_some]

/-- **An escaped character is read as its piece.** -/
theorem scanPieces_escaped (p : CodePoint) (cs : List CodePoint) :
    scanPieces (escape p ++ cs) = (scanPieces cs).map fun r => (pieceOf p :: r.1, r.2) := by
  unfold escape pieceOf
  by_cases h1 : p = chr '"'
  · subst h1
    exact scanPieces_escape (by decide) rfl cs
  by_cases h2 : p = chr '\\'
  · subst h2
    exact scanPieces_escape (by decide) rfl cs
  by_cases h3 : p = chr '\n'
  · subst h3
    exact scanPieces_escape (by decide) rfl cs
  by_cases h4 : p = chr '\r'
  · subst h4
    exact scanPieces_escape (by decide) rfl cs
  by_cases h5 : p = chr '\t'
  · subst h5
    exact scanPieces_escape (by decide) rfl cs
  rw [if_neg h1, if_neg h2, if_neg h3, if_neg h4, if_neg h5]
  by_cases h6 : p.val = 0x0c
  · rw [if_pos h6, dif_neg (fun h => h.2.2.2.2.1 h6)]
    have hp : p = ⟨0x0c, by decide⟩ := by
      cases p
      cases h6
      rfl
    rw [hp]
    exact scanPieces_escape (by decide) rfl cs
  by_cases h7 : p.val = 0x08
  · rw [if_neg h6, if_pos h7, dif_neg (fun h => h.2.2.2.2.2 h7)]
    have hp : p = ⟨0x08, by decide⟩ := by
      cases p
      cases h7
      rfl
    rw [hp]
    exact scanPieces_escape (by decide) rfl cs
  rw [if_neg h6, if_neg h7]
  by_cases h8 : p.val < 0x20
  · rw [if_pos h8, dif_pos ⟨h8, h3, h4, h5, h6, h7⟩]
    exact scanPieces_unit h8 cs
  · rw [if_neg h8, dif_neg (fun h => h8 h.1), List.singleton_append, scanPieces.eq_def (p :: cs)]
    dsimp only
    rw [if_neg h1, if_neg h2, if_neg h8]

theorem scanPieces_dumped (ps : List CodePoint) (rest : List CodePoint) :
    scanPieces (ps.flatMap escape ++ chr '"' :: rest) = some (ps.map pieceOf, rest) := by
  induction ps with
  | nil => exact scanPieces_quote rest
  | cons p ps ih =>
    rw [List.flatMap_cons, List.append_assoc, scanPieces_escaped, ih]
    rfl

theorem join_plain (p : CodePoint) (ps : List Piece) : join (.plain p :: ps) = p :: join ps := by
  rw [join.eq_def]

/-- An escape that is no surrogate is one code point. -/
theorem join_unit {u : Fin 0x10000} (hu : u.val < 0xd800) (ps : List Piece) :
    join (.unit u :: ps) = ⟨u.val, by omega⟩ :: join ps := by
  match ps with
  | [] => rfl
  | .plain p :: ps => rw [join_plain, join]
  | .unit w :: ps =>
    rw [join, dif_neg]
    omega

theorem join_pieces (ps : List CodePoint) : join (ps.map pieceOf) = ps := by
  induction ps with
  | nil => rfl
  | cons p ps ih =>
    rw [List.map_cons]
    by_cases h : p.val < 0x20 ∧ p ≠ chr '\n' ∧ p ≠ chr '\r' ∧ p ≠ chr '\t' ∧ p.val ≠ 0x0c ∧ p.val ≠ 0x08
    · have hunit : pieceOf p = .unit ⟨p.val, by omega⟩ := dif_pos h
      have hlt : p.val < 0xd800 := by omega
      rw [hunit, join_unit hlt, ih]
    · have hplain : pieceOf p = .plain p := dif_neg h
      rw [hplain, join_plain, ih]

/-- **A string is read back.** -/
theorem scanString_dumped (t : Text) (rest : List CodePoint) :
    scanString (t.points.flatMap escape ++ chr '"' :: rest) = some (t, rest) := by
  rw [scanString, scanPieces_dumped, Option.map_some, join_pieces]

/-! ### Values -/

mutual
/-- The members of every object have distinct names, as a dict's have. -/
def Distinct : Value F → Prop
  | .arr vs => DistinctItems vs
  | .obj members => (members.map Prod.fst).Nodup ∧ DistinctMembers members
  | _ => True
def DistinctItems : List (Value F) → Prop
  | [] => True
  | v :: vs => Distinct v ∧ DistinctItems vs
def DistinctMembers : List (Text × Value F) → Prop
  | [] => True
  | (_, v) :: ms => Distinct v ∧ DistinctMembers ms
end

theorem expect_chr (c : Char) (cs : List CodePoint) : expect c (chr c :: cs) = some cs := by
  rw [expect, if_pos rfl]

theorem expect_ne {c : Char} {p : CodePoint} (h : p ≠ chr c) (cs : List CodePoint) : expect c (p :: cs) = none := by
  rw [expect, if_neg h]

theorem skip_cons {p : CodePoint} (h : isSpace p = false) (cs : List CodePoint) : skip (p :: cs) = p :: cs := by
  rw [skip, List.dropWhile_cons_of_neg]
  simp [h]

theorem skip_space (cs : List CodePoint) : skip (chr ' ' :: cs) = skip cs := by
  rw [skip, List.dropWhile_cons_of_pos (by decide)]
  rfl

theorem skip_comma (cs : List CodePoint) : skip (lit ", " ++ cs) = chr ',' :: chr ' ' :: cs := skip_cons (by decide) _

/-- A text starts with a character that is neither space nor a closing bracket. -/
structure Starts (cs : List CodePoint) : Prop where
  out : ∃ p ps, cs = p :: ps ∧ isSpace p = false ∧ p ≠ chr ']'

theorem starts_append {cs : List CodePoint} (h : Starts cs) (rest : List CodePoint) : Starts (cs ++ rest) := by
  obtain ⟨p, ps, rfl, hspace, hne⟩ := h.out
  exact ⟨p, ps ++ rest, rfl, hspace, hne⟩

theorem skip_starts {cs : List CodePoint} (h : Starts cs) : skip cs = cs := by
  obtain ⟨p, ps, rfl, hspace, -⟩ := h.out
  exact skip_cons hspace ps

theorem starts_word {c : Char} (h : wordChar c = true) (cs : List CodePoint) : Starts (chr c :: cs) := by
  have hne : ∀ c', wordChar c' = false → chr c ≠ chr c' := fun _ => chr_ne_of_word h
  refine ⟨_, _, rfl, ?_, hne ']' (by decide)⟩
  simp [isSpace, hne ' ' (by decide), hne '\t' (by decide), hne '\n' (by decide), hne '\r' (by decide)]

theorem dump_starts (num : Numbers F) (v : Value F) : Starts (dump num v) := by
  cases v with
  | null => exact starts_word (by decide) _
  | bool b => cases b <;> exact starts_word (by decide) _
  | num x =>
    cases htext : num.text x with
    | nil => exact absurd htext (num.text_ne_nil x)
    | cons c cs =>
      rw [dump, htext, List.map_cons]
      exact starts_word (num.text_word x c (by rw [htext]; exact List.mem_cons_self)) _
  | str t => exact ⟨_, _, rfl, by decide, by decide⟩
  | arr vs =>
    rw [dump]
    exact ⟨_, _, rfl, by decide, by decide⟩
  | obj ms =>
    rw [dump]
    exact ⟨_, _, rfl, by decide, by decide⟩

theorem dumpItems_starts (num : Numbers F) (v : Value F) (vs : List (Value F)) : Starts (dumpItems num (v :: vs)) := by
  cases vs with
  | nil =>
    rw [dumpItems]
    exact starts_append (dump_starts num v) _
  | cons w vs =>
    rw [dumpItems, List.append_assoc]
    exact starts_append (dump_starts num v) _

/-- Members start with the quote of a name. -/
theorem dumpMembers_eq (num : Numbers F) (m : Text × Value F) (ms : List (Text × Value F)) :
    ∃ ps, dumpMembers num (m :: ms) = chr '"' :: ps := by
  obtain ⟨k, v⟩ := m
  cases ms with
  | nil => exact ⟨_, by rw [dumpMembers, dumpString]; rfl⟩
  | cons m ms => exact ⟨_, by rw [dumpMembers, dumpString]; rfl⟩

theorem skip_members (num : Numbers F) (m : Text × Value F) (ms : List (Text × Value F)) (rest : List CodePoint) :
    skip (dumpMembers num (m :: ms) ++ rest) = dumpMembers num (m :: ms) ++ rest := by
  obtain ⟨ps, heq⟩ := dumpMembers_eq num m ms
  rw [heq]
  exact skip_cons (by decide) _

theorem scan_word (num : Numbers F) {c : Char} (h : wordChar c = true) (n : Nat) (cs : List CodePoint) :
    scan num (n + 1) (chr c :: cs) = scanWord num (chr c :: cs) := by
  rw [scan, if_neg (chr_ne_of_word h (by decide)), if_neg (chr_ne_of_word h (by decide)),
    if_neg (chr_ne_of_word h (by decide))]

/-- A word is read up to its end. -/
theorem scan_dumpWord (num : Numbers F) (word : List Char) {v : Value F} {rest : List CodePoint}
    (hword : ∀ c ∈ word, wordChar c = true) (hv : wordValue num (word.map chr) = some v) (hrest : Ends rest) (n : Nat) :
    scan num (n + 1) (word.map chr ++ rest) = some (v, rest) := by
  cases word with
  | nil =>
    rw [List.map_nil, wordValue, if_pos rfl] at hv
    cases hv
  | cons c word =>
    have hc : wordChar c = true := hword c List.mem_cons_self
    rw [List.map_cons, List.cons_append, scan_word num hc, ← List.cons_append, ← List.map_cons,
      scanWord_append num hword hrest, hv, Option.map_some]

theorem scanName_dumped (k : Text) {cs : List CodePoint} (hcs : Starts cs) :
    scanName (dumpString k ++ (lit ": " ++ cs)) = some (k, cs) := by
  have hname : dumpString k ++ (lit ": " ++ cs) =
      chr '"' :: (k.points.flatMap escape ++ chr '"' :: chr ':' :: chr ' ' :: cs) := by
    simp [dumpString, lit]
  have hcolon : skip (chr ':' :: chr ' ' :: cs) = chr ':' :: chr ' ' :: cs := skip_cons (by decide) _
  rw [scanName, hname, expect_chr, Option.bind_some, scanString_dumped, Option.bind_some, hcolon, expect_chr,
    Option.map_some, skip_space, skip_starts hcs]

mutual
/-- **A written value is read back, and nothing after it.** -/
theorem scan_dump (num : Numbers F) : ∀ (v : Value F) (n : Nat) (rest : List CodePoint), Distinct v →
    (dump num v).length < n → Ends rest → scan num n (dump num v ++ rest) = some (v, rest)
  | _, 0, _, _, h, _ => absurd h (Nat.not_lt_zero _)
  | .null, n + 1, rest, _, _, hrest => scan_dumpWord num "null".toList (List.all_eq_true.1 rfl) rfl hrest n
  | .bool true, n + 1, rest, _, _, hrest => scan_dumpWord num "true".toList (List.all_eq_true.1 rfl) rfl hrest n
  | .bool false, n + 1, rest, _, _, hrest => scan_dumpWord num "false".toList (List.all_eq_true.1 rfl) rfl hrest n
  | .num x, n + 1, rest, _, _, hrest => by
    rw [dump]
    exact scan_dumpWord num (num.text x) (num.text_word x) (wordValue_num num x) hrest n
  | .str t, n + 1, rest, _, _, _ => by
    rw [dump, dumpString, List.cons_append, List.append_assoc, List.singleton_append, scan, if_pos rfl,
      scanString_dumped, Option.map_some]
  | .arr [], n + 1, rest, _, _, _ => rfl
  | .arr (v :: vs), n + 1, rest, hv, hn, _ => by
    rw [Distinct] at hv
    rw [dump, List.length_cons] at hn
    have hstarts : Starts (dumpItems num (v :: vs) ++ rest) := starts_append (dumpItems_starts num v vs) rest
    have hitems := scanItems_dump num v vs n rest hv (Nat.lt_of_succ_lt_succ hn)
    rw [dump, List.cons_append, scan, if_neg (by decide), if_pos rfl, skip_starts hstarts, hitems]
    obtain ⟨p, ps, heq, -, hne⟩ := hstarts.out
    rw [heq, expect_ne hne, Option.map_some]
  | .obj [], n + 1, rest, _, _, _ => rfl
  | .obj (m :: ms), n + 1, rest, hv, hn, _ => by
    rw [Distinct] at hv
    rw [dump, List.length_cons] at hn
    obtain ⟨ps, heq⟩ := dumpMembers_eq num m ms
    have hmembers := scanMembers_dump num m ms n rest hv.2 (Nat.lt_of_succ_lt_succ hn)
    have hentries : (Dict.update .empty (m :: ms)).entries = m :: ms := Dict.entries_update (m :: ms) hv.1
    rw [dump, List.cons_append, scan, if_neg (by decide), if_neg (by decide), if_pos rfl, skip_members, hmembers,
      Option.map_some, hentries, heq, List.cons_append, expect_ne (by decide)]

theorem scanItems_dump (num : Numbers F) : ∀ (v : Value F) (vs : List (Value F)) (n : Nat) (rest : List CodePoint),
    DistinctItems (v :: vs) → (dumpItems num (v :: vs)).length < n →
    scanItems num n (dumpItems num (v :: vs) ++ rest) = some (v :: vs, rest)
  | _, _, 0, _, _, h => absurd h (Nat.not_lt_zero _)
  | v, [], n + 1, rest, hv, hn => by
    rw [dumpItems, List.length_append, List.length_singleton] at hn
    have hscan := scan_dump num v n (chr ']' :: rest) hv.1 (by omega) (ends_chr (by decide) rest)
    rw [dumpItems, List.append_assoc, List.singleton_append, scanItems, hscan, Option.bind_some, skip_cons (by decide),
      expect_chr]
  | v, w :: vs, n + 1, rest, hv, hn => by
    have hlen : (lit ", ").length = 2 := rfl
    rw [dumpItems, List.length_append, List.length_append, hlen] at hn
    have hscan := scan_dump num v n (lit ", " ++ (dumpItems num (w :: vs) ++ rest)) hv.1 (by omega)
      (ends_chr (by decide) _)
    have hitems := scanItems_dump num w vs n rest hv.2 (by omega)
    have hskip : skip (dumpItems num (w :: vs) ++ rest) = dumpItems num (w :: vs) ++ rest :=
      skip_starts (starts_append (dumpItems_starts num w vs) rest)
    rw [dumpItems, List.append_assoc, List.append_assoc, scanItems, hscan, Option.bind_some, skip_comma,
      expect_ne (by decide), expect_chr]
    dsimp only
    rw [Option.bind_some, skip_space, hskip, hitems, Option.map_some]

theorem scanMembers_dump (num : Numbers F) : ∀ (m : Text × Value F) (ms : List (Text × Value F)) (n : Nat)
    (rest : List CodePoint), DistinctMembers (m :: ms) → (dumpMembers num (m :: ms)).length < n →
    scanMembers num n (dumpMembers num (m :: ms) ++ rest) = some (m :: ms, rest)
  | _, _, 0, _, _, h => absurd h (Nat.not_lt_zero _)
  | (k, v), [], n + 1, rest, hv, hn => by
    have hlen : (lit ": ").length = 2 := rfl
    rw [dumpMembers, List.length_append, List.length_append, List.length_append, List.length_singleton, hlen] at hn
    have hname := scanName_dumped k (starts_append (dump_starts num v) (chr '\x7d' :: rest))
    have hscan := scan_dump num v n (chr '\x7d' :: rest) hv.1 (by omega) (ends_chr (by decide) rest)
    rw [dumpMembers]
    simp only [List.append_assoc, List.singleton_append]
    rw [scanMembers, hname, Option.bind_some, hscan, Option.bind_some, skip_cons (by decide), expect_chr]
  | (k, v), m :: ms, n + 1, rest, hv, hn => by
    have hlen : (lit ": ").length = 2 := rfl
    rw [dumpMembers, List.length_append, List.length_append, List.length_append, List.length_append, hlen] at hn
    have hname := scanName_dumped k
      (starts_append (dump_starts num v) (lit ", " ++ (dumpMembers num (m :: ms) ++ rest)))
    have hscan := scan_dump num v n (lit ", " ++ (dumpMembers num (m :: ms) ++ rest)) hv.1 (by omega)
      (ends_chr (by decide) _)
    have hmembers := scanMembers_dump num m ms n rest hv.2 (by omega)
    rw [dumpMembers]
    simp only [List.append_assoc]
    rw [scanMembers, hname, Option.bind_some, hscan, Option.bind_some, skip_comma, expect_ne (by decide), expect_chr]
    dsimp only
    rw [Option.bind_some, skip_space, skip_members, hmembers, Option.map_some]
end

/-- **What `dumps` writes, `loads` reads back.** -/
theorem loads_dumps (num : Numbers F) {v : Value F} (hv : Distinct v) : loads num (dumps num v) = some v := by
  have hscan := scan_dump num v ((dump num v).length + 1) [] hv (Nat.lt_succ_self _) ends_nil
  rw [List.append_nil] at hscan
  rw [loads, dumps, skip_starts (dump_starts num v), hscan]
  rfl

/-! ## Integers -/

/-- A natural number, without leading zeros. -/
def readNat (cs : List Char) : Option Nat :=
  if Nat.toDigits 10 (Nat.ofDigitChars 10 cs 0) = cs then some (Nat.ofDigitChars 10 cs 0) else none

def readInt : List Char → Option ℤ
  | '-' :: cs => (readNat cs).map (fun n : Nat => -(n : ℤ))
  | cs => (readNat cs).map Int.ofNat

def intText (x : ℤ) : List Char :=
  if x < 0 then '-' :: Nat.toDigits 10 x.natAbs else Nat.toDigits 10 x.natAbs

theorem digits_word (n : Nat) : ∀ c ∈ Nat.toDigits 10 n, wordChar c = true ∧ c.isDigit = true := by
  intro c hc
  have hdigit : c.isDigit = true := Nat.isDigit_of_mem_toDigits (by decide) (by decide) hc
  exact ⟨by simp [wordChar, Char.isAlphanum, hdigit], hdigit⟩

theorem readNat_toDigits (n : Nat) : readNat (Nat.toDigits 10 n) = some n := by
  rw [readNat, Nat.ofDigitChars_ten_toDigits, if_pos rfl]

theorem digits_cons (n : Nat) : ∃ c cs, Nat.toDigits 10 n = c :: cs ∧ c.isDigit = true := by
  cases h : Nat.toDigits 10 n with
  | nil => exact absurd h Nat.toDigits_ne_nil
  | cons c cs => exact ⟨c, cs, rfl, (digits_word n c (by rw [h]; exact List.mem_cons_self)).2⟩

theorem readInt_intText (x : ℤ) : readInt (intText x) = some x := by
  unfold intText
  by_cases hneg : x < 0
  · rw [if_pos hneg, readInt, readNat_toDigits, Option.map_some, Option.some.injEq]
    omega
  · obtain ⟨c, cs, heq, hc⟩ := digits_cons x.natAbs
    have hread := readNat_toDigits x.natAbs
    have hne : c ≠ '-' := by
      rintro rfl
      exact absurd hc (by decide)
    rw [if_neg hneg]
    rw [heq] at hread ⊢
    rw [readInt, hread, Option.map_some, Option.some.injEq, Int.ofNat_eq_natCast]
    · omega
    · exact fun _ h => hne (List.cons.inj h).1

/-- The numbers of a program that has integers only. -/
def integers : Numbers ℤ where
  text := intText
  read := readInt
  text_ne_nil x := by
    unfold intText
    split
    · exact List.cons_ne_nil _ _
    · exact Nat.toDigits_ne_nil
  text_word x := by
    unfold intText
    split
    · intro c hc
      rcases List.mem_cons.1 hc with rfl | hc
      · rfl
      · exact (digits_word _ c hc).1
    · exact fun c hc => (digits_word _ c hc).1
  text_ne_literal x := by
    obtain ⟨c, cs, heq, hc⟩ := digits_cons x.natAbs
    have hfirst : ∀ c' cs', c'.isDigit = false → c' ≠ '-' → intText x ≠ c' :: cs' := by
      intro c' cs' hdigit hminus h
      unfold intText at h
      split at h
      · exact hminus (List.cons.inj h).1.symm
      · rw [heq] at h
        rw [(List.cons.inj h).1] at hc
        rw [hc] at hdigit
        cases hdigit
    exact ⟨hfirst _ _ (by decide) (by decide), hfirst _ _ (by decide) (by decide), hfirst _ _ (by decide) (by decide)⟩
  read_text := readInt_intText

/-! ## Objects -/

theorem distinctMembers_iff : ∀ {ms : List (Text × Value F)}, DistinctMembers ms ↔ ∀ m ∈ ms, Distinct m.2
  | [] => by simp [DistinctMembers]
  | (k, v) :: ms => by
    rw [DistinctMembers, distinctMembers_iff, List.forall_mem_cons]

/-- A decoded object: a dict, and so is every object in it. -/
structure Obj (F : Type) where
  members : Dict Text (Value F)
  distinct : ∀ m ∈ members.entries, Distinct m.2

namespace Obj

def toValue (o : Obj F) : Value F := .obj o.members.entries

theorem distinct_toValue (o : Obj F) : Distinct o.toValue := by
  rw [toValue, Distinct]
  exact ⟨o.members.nodup, distinctMembers_iff.2 o.distinct⟩

def empty : Obj F := ⟨.empty, fun _ h => nomatch h⟩

/-- `{**o, k: t}`. -/
def setStr (o : Obj F) (k t : Text) : Obj F where
  members := o.members.set k (.str t)
  distinct := by
    intro m hm
    rcases Dict.mem_assoc hm with rfl | hm
    · trivial
    · exact o.distinct m hm

end Obj

/-- A field of a decoded value. -/
def Value.get? : Value F → Text → Option (Value F)
  | .obj members, k => Dict.find k members
  | _, _ => none

end JsonCodec
