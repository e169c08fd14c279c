import TensorCash.Assets.Readers
import Mathlib.Data.List.Sort

/-! The canonical form of a band of metadata, `CanonicalizeIcuBandJson` of
`assets/icu_payload.cpp`. -/

namespace TensorCash.BandJson

open Codec

/-- A JSON value; a number is kept as it was written. -/
inductive UniValue where
  | VNULL
  | VBOOL (value : Bool)
  | VNUM (lexeme : Bytes)
  | VSTR (value : Bytes)
  | VARR (values : List UniValue)
  | VOBJ (entries : List (Bytes × UniValue))

def literal (s : String) : Bytes := s.toList.map fun c => UInt8.ofNat c.toNat

def quote : UInt8 := 0x22
def backslash : UInt8 := 0x5C
def comma : UInt8 := 0x2C

def escape (c : UInt8) : Bytes :=
  if c = quote ∨ c = backslash then [backslash, c]
  else if c = 0x08 then backslash :: literal "b"
  else if c = 0x09 then backslash :: literal "t"
  else if c = 0x0A then backslash :: literal "n"
  else if c = 0x0C then backslash :: literal "f"
  else if c = 0x0D then backslash :: literal "r"
  else if c < 0x20 then
    backslash :: literal "u00" ++ [(c.toNat / 16).digitChar, (c.toNat % 16).digitChar].map fun d => UInt8.ofNat d.toNat
  else [c]

def canonicalJsonString (s : Bytes) : Bytes := quote :: (s.flatMap escape ++ [quote])

def isDigit (c : UInt8) : Bool := 0x30 ≤ c && c ≤ 0x39

/-- The numbers `-?(0|[1-9][0-9]*)` other than `-0`. -/
def isCanonicalJsonNumber (s : Bytes) : Bool :=
  let negative := s.head? = some 0x2D
  match if negative then s.drop 1 else s with
  | [] => false
  | c :: digits => if c = 0x30 then digits = [] ∧ ¬ negative else isDigit c && digits.all isDigit

def joined : List Bytes → Bytes
  | [] => []
  | first :: more => first ++ more.flatMap (comma :: ·)

/-- The members of an object in key order; `v[key]` is the first value under the key. -/
def members (texts : List (Bytes × Option Bytes)) : List Bytes → Option (List Bytes)
  | [] => some []
  | key :: keys => do
    let text ← (texts.lookup key).join
    let more ← members texts keys
    some ((canonicalJsonString key ++ literal ":" ++ text) :: more)

mutual

def appendCanonicalJsonValue : UniValue → Option Bytes
  | .VNULL => some (literal "null")
  | .VBOOL value => some (literal (if value then "true" else "false"))
  | .VNUM lexeme => if isCanonicalJsonNumber lexeme then some lexeme else none
  | .VSTR value => some (canonicalJsonString value)
  | .VARR values => (appendValues values).map fun texts => literal "[" ++ joined texts ++ literal "]"
  | .VOBJ entries =>
    let keys := (entries.map Prod.fst).insertionSort (· ≤ ·)
    if keys.IsChain (· ≠ ·) then
      (members (entryTexts entries) keys).map fun texts => 0x7B :: joined texts ++ [0x7D]
    else none

def appendValues : List UniValue → Option (List Bytes)
  | [] => some []
  | value :: values => do
    let text ← appendCanonicalJsonValue value
    let texts ← appendValues values
    some (text :: texts)

def entryTexts : List (Bytes × UniValue) → List (Bytes × Option Bytes)
  | [] => []
  | (key, value) :: entries => (key, appendCanonicalJsonValue value) :: entryTexts entries

end

/-- Two values are the same up to the order of keys, at any depth. -/
inductive SameValue : UniValue → UniValue → Prop
  | refl (u) : SameValue u u
  | symm {u v} : SameValue u v → SameValue v u
  | trans {u v w} : SameValue u v → SameValue v w → SameValue u w
  | item {u v} (before behind) : SameValue u v → SameValue (.VARR (before ++ u :: behind)) (.VARR (before ++ v :: behind))
  | entry {u v} (key before behind) : SameValue u v →
      SameValue (.VOBJ (before ++ (key, u) :: behind)) (.VOBJ (before ++ (key, v) :: behind))
  | reorder {entries entries'} : entries.Perm entries' → SameValue (.VOBJ entries) (.VOBJ entries')

section Strings

/-- A letter back from its text; a quote ends the string. -/
def unescape : Bytes → Option (UInt8 × Bytes)
  | [] => none
  | c :: rest =>
    if c = quote then none
    else if c ≠ backslash then some (c, rest)
    else
      match rest with
      | [] => none
      | d :: rest =>
        if d = 0x75 then
          match rest with
          | _ :: _ :: h :: l :: rest => some ((h - 48) * 16 + (if l < 58 then l - 48 else l - 87), rest)
          | _ => none
        else
          let short : List (UInt8 × UInt8) := [(0x62, 0x08), (0x74, 0x09), (0x6E, 0x0A), (0x66, 0x0C), (0x72, 0x0D)]
          some ((short.lookup d).getD d, rest)

theorem unescape_escape (c : UInt8) (rest : Bytes) : unescape (escape c ++ rest) = some (c, rest) := by
  unfold escape
  split_ifs with marked b t n f r low
  · rcases marked with rfl | rfl <;> rfl
  · rw [b]; rfl
  · rw [t]; rfl
  · rw [n]; rfl
  · rw [f]; rfl
  · rw [r]; rfl
  · have table : ∀ v : Fin 32, let d (n : Nat) : UInt8 := UInt8.ofNat n.digitChar.toNat
        (d (v / 16) - 48) * 16 + (if d (v % 16) < 58 then d (v % 16) - 48 else d (v % 16) - 87) = UInt8.ofNat v := by
      decide +kernel
    have value := table ⟨c.toNat, UInt8.lt_iff_toNat_lt.mp low⟩
    rw [UInt8.ofNat_toNat] at value
    exact congrArg (fun v => some (v, rest)) value
  · obtain ⟨not_quote, not_backslash⟩ := not_or.mp marked
    simp [unescape, not_quote, not_backslash]

theorem letters_split {s t r r' : Bytes}
    (same : s.flatMap escape ++ quote :: r = t.flatMap escape ++ quote :: r') : s = t ∧ r = r' := by
  induction s generalizing t with
  | nil =>
    cases t with
    | nil => exact ⟨rfl, (List.cons.inj same).2⟩
    | cons c t =>
      have read := congrArg unescape same
      rw [List.flatMap_cons, List.append_assoc, unescape_escape] at read
      cases read
  | cons c s ih =>
    cases t with
    | nil =>
      have read := congrArg unescape same
      rw [List.flatMap_cons, List.append_assoc, unescape_escape] at read
      cases read
    | cons d t =>
      have read := congrArg unescape same
      rw [List.flatMap_cons, List.append_assoc, unescape_escape, List.flatMap_cons, List.append_assoc,
        unescape_escape] at read
      obtain ⟨rfl, rests⟩ := Prod.mk.inj (Option.some.inj read)
      obtain ⟨rfl, rfl⟩ := ih rests
      exact ⟨rfl, rfl⟩

theorem canonicalJsonString_split {s t r r' : Bytes}
    (same : canonicalJsonString s ++ r = canonicalJsonString t ++ r') : s = t ∧ r = r' := by
  simp only [canonicalJsonString, List.cons_append, List.append_assoc, List.nil_append] at same
  exact letters_split (List.cons.inj same).2

end Strings

def isNumeric (c : UInt8) : Bool := c = 0x2D || isDigit c

theorem numeric_of_canonical {s : Bytes} (canonical : isCanonicalJsonNumber s = true) :
    s ≠ [] ∧ ∀ c ∈ s, isNumeric c := by
  have digit {c : UInt8} (number : isDigit c = true) : isNumeric c = true := by simp [isNumeric, number]
  have zero : isNumeric 0x30 = true := rfl
  have digits {c : UInt8} {more : Bytes}
      (canonical : (if c = 0x30 then decide (more = [] ∧ ¬ s.head? = some 0x2D)
        else isDigit c && more.all isDigit) = true) :
      ∀ d ∈ c :: more, isNumeric d := by
    split_ifs at canonical with leading
    · obtain ⟨rfl, _⟩ := of_decide_eq_true canonical
      simp [leading, zero]
    · simp only [Bool.and_eq_true, List.all_eq_true] at canonical
      exact List.forall_mem_cons.mpr ⟨digit canonical.1, fun d inside => digit (canonical.2 d inside)⟩
  unfold isCanonicalJsonNumber at canonical
  cases s with
  | nil => cases canonical
  | cons c more =>
    refine ⟨List.cons_ne_nil _ _, ?_⟩
    by_cases negative : c = 0x2D
    · cases more with
      | nil => simp [negative] at canonical
      | cons d more =>
        have rest : ∀ c ∈ d :: more, isNumeric c := digits (by simpa [negative] using canonical)
        exact List.forall_mem_cons.mpr ⟨by rw [negative]; rfl, rest⟩
    · exact digits (by simpa [negative] using canonical)

def kindOf (c : UInt8) : Nat :=
  if isNumeric c then 2 else ([(0x6E, 0), (0x74, 1), (0x66, 1), (quote, 3), (0x5B, 4), (0x7B, 5)].lookup c).getD 6

def UniValue.kind : UniValue → Nat
  | .VNULL => 0
  | .VBOOL _ => 1
  | .VNUM _ => 2
  | .VSTR _ => 3
  | .VARR _ => 4
  | .VOBJ _ => 5

theorem text_head {v : UniValue} {a : Bytes} (written : appendCanonicalJsonValue v = some a) :
    ∃ c tail, a = c :: tail ∧ kindOf c = v.kind := by
  cases v with
  | VNULL => exact ⟨_, _, (Option.some.inj written).symm, rfl⟩
  | VBOOL b => cases b <;> exact ⟨_, _, (Option.some.inj written).symm, rfl⟩
  | VNUM s =>
    rw [appendCanonicalJsonValue, Option.ite_none_right_eq_some] at written
    obtain ⟨canonical, same⟩ := written
    obtain rfl := Option.some.inj same
    obtain ⟨some_letter, numeric⟩ := numeric_of_canonical canonical
    obtain ⟨c, tail, rfl⟩ := List.exists_cons_of_ne_nil some_letter
    exact ⟨c, tail, rfl, if_pos (numeric c List.mem_cons_self)⟩
  | VSTR s => exact ⟨_, _, (Option.some.inj written).symm, rfl⟩
  | VARR values =>
    rw [appendCanonicalJsonValue, Option.map_eq_some_iff] at written
    obtain ⟨texts, _, rfl⟩ := written
    exact ⟨_, _, rfl, rfl⟩
  | VOBJ entries =>
    rw [appendCanonicalJsonValue, Option.ite_none_right_eq_some, Option.map_eq_some_iff] at written
    obtain ⟨_, texts, _, rfl⟩ := written
    exact ⟨_, _, rfl, rfl⟩

def Ends (rest : Bytes) : Prop := ∀ c ∈ rest.head?, isNumeric c = false

section Lists

variable {α : Type} {R : α → α → Prop} {writes : α → Bytes → Prop} {close : UInt8} {r r' : Bytes}
  {xs ys : List α} {ts us : List Bytes}
  (item : ∀ x ∈ xs, ∀ y a b r s, writes x a → writes y b → Ends r → Ends s → a ++ r = b ++ s → R x y ∧ r = s)
  (closes : close ≠ comma ∧ isNumeric close = false) (wx : List.Forall₂ writes xs ts)
  (wy : List.Forall₂ writes ys us)

include item closes wx wy

theorem more_split (same : ts.flatMap (comma :: ·) ++ close :: r = us.flatMap (comma :: ·) ++ close :: r') :
    List.Forall₂ R xs ys ∧ r = r' := by
  have ends (ts : List Bytes) (r : Bytes) : Ends (ts.flatMap (comma :: ·) ++ close :: r) := by
    intro c first
    cases ts <;> cases first
    · exact closes.2
    · rfl
  induction wx generalizing ys us with
  | nil =>
    cases wy with
    | nil => exact ⟨.nil, (List.cons.inj same).2⟩
    | cons _ _ => exact absurd (List.cons.inj same).1 closes.1
  | @cons x a xs ts first more ih =>
    cases wy with
    | nil => exact absurd (List.cons.inj same).1.symm closes.1
    | @cons y b ys us first' more' =>
      simp only [List.flatMap_cons, List.cons_append, List.append_assoc] at same
      obtain ⟨related, rests⟩ := item x List.mem_cons_self y a b _ _ first first' (ends _ _) (ends _ _)
        (List.cons.inj same).2
      obtain ⟨relateds, rest⟩ := ih (fun x inside => item x (List.mem_cons_of_mem _ inside)) more' rests
      exact ⟨.cons related relateds, rest⟩

theorem joined_split (start : ∀ y b, writes y b → b.head? ≠ none ∧ b.head? ≠ some close)
    (same : joined ts ++ close :: r = joined us ++ close :: r') : List.Forall₂ R xs ys ∧ r = r' := by
  have clash {y b more r r'} (text : writes y b) : close :: r ≠ b ++ (more ++ close :: r') := by
    obtain ⟨some_letter, other⟩ := start y b text
    cases b with
    | nil => exact absurd rfl some_letter
    | cons c b =>
      rintro same
      exact other (congrArg some (List.cons.inj same).1.symm)
  cases wx with
  | nil =>
    cases wy with
    | nil => exact ⟨.nil, (List.cons.inj same).2⟩
    | cons text _ => exact absurd (same.trans (List.append_assoc _ _ _)) (clash text)
  | @cons x a xs ts first more =>
    cases wy with
    | nil => exact absurd (same.symm.trans (List.append_assoc _ _ _)) (clash first)
    | @cons y b ys us first' more' =>
      -- The first items are split as if both lists had a comma in front of them.
      refine more_split item closes (.cons first more) (.cons first' more') ?_
      simpa [joined] using same

end Lists

theorem UniValue.by_parts {P : UniValue → Prop} (null : P .VNULL) (bool : ∀ b, P (.VBOOL b))
    (num : ∀ s, P (.VNUM s)) (str : ∀ s, P (.VSTR s))
    (arr : ∀ values, (∀ v ∈ values, P v) → P (.VARR values))
    (obj : ∀ entries, (∀ e ∈ entries, P e.2) → P (.VOBJ entries)) (v : UniValue) : P v :=
  @UniValue.rec P (fun values => ∀ v ∈ values, P v) (fun entries => ∀ e ∈ entries, P e.2) (fun e => P e.2)
    null bool num str arr obj (List.forall_mem_nil _) (fun _ _ first more => List.forall_mem_cons.mpr ⟨first, more⟩)
    (List.forall_mem_nil _) (fun _ _ first more => List.forall_mem_cons.mpr ⟨first, more⟩) (fun _ _ value => value) v

section Objects

theorem appendValues_eq_some {values : List UniValue} {texts : List Bytes}
    (written : appendValues values = some texts) :
    List.Forall₂ (fun v t => appendCanonicalJsonValue v = some t) values texts := by
  induction values generalizing texts with
  | nil =>
    cases written
    exact .nil
  | cons v values ih =>
    simp only [appendValues, Option.bind_eq_bind, Option.bind_eq_some_iff] at written
    obtain ⟨text, first, texts, more, same⟩ := written
    cases same
    exact .cons first (ih more)

theorem nodup_of_chain {keys : List Bytes} (sorted : keys.Pairwise (· ≤ ·)) (distinct : keys.IsChain (· ≠ ·)) :
    keys.Nodup := by
  induction keys with
  | nil => exact List.nodup_nil
  | cons key keys ih =>
    obtain ⟨least, sorted⟩ := List.pairwise_cons.mp sorted
    refine List.nodup_cons.mpr ⟨fun again => ?_, ih sorted distinct.of_cons⟩
    -- The next key is not smaller than this one, so that an equal one cannot come after it.
    cases keys with
    | nil => cases again
    | cons next keys =>
      have below := least next List.mem_cons_self
      refine (List.isChain_cons_cons.mp distinct).1 (antisymm below ?_)
      rcases List.mem_cons.mp again with rfl | later
      · exact below
      · exact (List.pairwise_cons.mp sorted).1 key later

variable {entries : List (Bytes × UniValue)}

theorem lookup_entryTexts (distinct : (entries.map Prod.fst).Nodup)
    {e : Bytes × UniValue} (inside : e ∈ entries) :
    (entryTexts entries).lookup e.1 = some (appendCanonicalJsonValue e.2) := by
  induction entries with
  | nil => cases inside
  | cons first entries ih =>
    rw [List.map_cons, List.nodup_cons] at distinct
    rcases List.mem_cons.mp inside with rfl | later
    · simp [entryTexts]
    · have other : e.1 ≠ first.1 := fun same => distinct.1 (same ▸ List.mem_map_of_mem later)
      rw [entryTexts, List.lookup_cons, beq_false_of_ne other, ih distinct.2 later]

theorem sorted_keys (distinct : ((entries.map Prod.fst).insertionSort (· ≤ ·)).IsChain (· ≠ ·)) :
    (entries.map Prod.fst).Nodup :=
  (List.perm_insertionSort _ _).nodup_iff.mp (nodup_of_chain (List.pairwise_insertionSort _ _) distinct)

def Member (e : Bytes × UniValue) (text : Bytes) : Prop :=
  ∃ t, appendCanonicalJsonValue e.2 = some t ∧ text = canonicalJsonString e.1 ++ literal ":" ++ t

theorem members_eq_some {texts : List (Bytes × Option Bytes)} {ms : List Bytes}
    (found : ∀ e ∈ entries, texts.lookup e.1 = some (appendCanonicalJsonValue e.2))
    (written : members texts (entries.map Prod.fst) = some ms) : List.Forall₂ Member entries ms := by
  induction entries generalizing ms with
  | nil =>
    cases written
    exact .nil
  | cons e entries ih =>
    obtain ⟨here, later⟩ := List.forall_mem_cons.mp found
    simp only [List.map_cons, members, here, Option.join_some, Option.bind_eq_bind, Option.bind_eq_some_iff] at written
    obtain ⟨text, first, texts, more, same⟩ := written
    cases same
    exact .cons ⟨text, first, rfl⟩ (ih later more)

theorem object_of_written {a : Bytes}
    (written : appendCanonicalJsonValue (.VOBJ entries) = some a) :
    ∃ sorted ms, sorted.Perm entries ∧ List.Forall₂ Member sorted ms ∧ a = 0x7B :: joined ms ++ [0x7D] := by
  rw [appendCanonicalJsonValue, Option.ite_none_right_eq_some, Option.map_eq_some_iff] at written
  obtain ⟨distinct, ms, found, rfl⟩ := written
  have keys : (entries.insertionSort fun a b => a.1 ≤ b.1).map Prod.fst =
      (entries.map Prod.fst).insertionSort (· ≤ ·) := List.map_insertionSort _ _ _ _ fun _ _ _ _ => Iff.rfl
  have perm := List.perm_insertionSort (fun a b : Bytes × UniValue => a.1 ≤ b.1) entries
  rw [← keys] at found
  exact ⟨_, ms, perm, members_eq_some (fun e inside => lookup_entryTexts (sorted_keys distinct) (perm.mem_iff.mp inside))
    found, rfl⟩

end Objects

section Congruence

theorem sameValue_items {values values' : List UniValue}
    (same : List.Forall₂ SameValue values values') (before) :
    SameValue (.VARR (before ++ values)) (.VARR (before ++ values')) := by
  induction same generalizing before with
  | nil => exact .refl _
  | @cons u v us vs first _ ih =>
    refine .trans (.item before us first) ?_
    simpa using ih (before ++ [v])

variable {entries entries' : List (Bytes × UniValue)}

theorem sameValue_entries
    (same : List.Forall₂ (fun e e' => e.1 = e'.1 ∧ SameValue e.2 e'.2) entries entries') (before) :
    SameValue (.VOBJ (before ++ entries)) (.VOBJ (before ++ entries')) := by
  induction same generalizing before with
  | nil => exact .refl _
  | @cons e e' es es' first _ ih =>
    obtain ⟨key, u⟩ := e
    obtain ⟨key', v⟩ := e'
    obtain ⟨rfl, first⟩ := first
    refine .trans (.entry key before es first) ?_
    simpa using ih (before ++ [(key, v)])

theorem members_congr {texts texts' : List (Bytes × Option Bytes)} {keys : List Bytes}
    (same : ∀ key ∈ keys, texts.lookup key = texts'.lookup key) : members texts keys = members texts' keys := by
  induction keys with
  | nil => rfl
  | cons key keys ih =>
    obtain ⟨here, later⟩ := List.forall_mem_cons.mp same
    rw [members, members, here, ih later]

theorem append_reorder (perm : entries.Perm entries') :
    appendCanonicalJsonValue (.VOBJ entries) = appendCanonicalJsonValue (.VOBJ entries') := by
  have keys : (entries.map Prod.fst).insertionSort (· ≤ ·) = (entries'.map Prod.fst).insertionSort (· ≤ ·) :=
    List.Perm.eq_of_pairwise' (List.pairwise_insertionSort _ _) (List.pairwise_insertionSort _ _)
      ((List.perm_insertionSort _ _).trans ((perm.map _).trans (List.perm_insertionSort _ _).symm))
  rw [appendCanonicalJsonValue, appendCanonicalJsonValue, ← keys]
  split_ifs with distinct
  · have nodup := sorted_keys distinct
    have nodup' := (perm.map Prod.fst).nodup_iff.mp nodup
    rw [members_congr fun key inside => ?_]
    obtain ⟨e, here, rfl⟩ := List.mem_map.mp ((List.mem_insertionSort _).mp inside)
    rw [lookup_entryTexts nodup here, lookup_entryTexts nodup' (perm.mem_iff.mp here)]
  · rfl

theorem append_sameValue {u v : UniValue} (same : SameValue u v) :
    appendCanonicalJsonValue u = appendCanonicalJsonValue v := by
  induction same with
  | refl => rfl
  | symm _ ih => exact ih.symm
  | trans _ _ first second => exact first.trans second
  | @item u v before behind _ ih =>
    have texts : appendValues (before ++ u :: behind) = appendValues (before ++ v :: behind) := by
      induction before with
      | nil => rw [List.nil_append, List.nil_append, appendValues, appendValues, ih]
      | cons w before rest => rw [List.cons_append, List.cons_append, appendValues, appendValues, rest]
    rw [appendCanonicalJsonValue, appendCanonicalJsonValue, texts]
  | @entry u v key before behind _ ih =>
    have texts : entryTexts (before ++ (key, u) :: behind) = entryTexts (before ++ (key, v) :: behind) := by
      induction before with
      | nil => rw [List.nil_append, List.nil_append, entryTexts, entryTexts, ih]
      | cons e before rest => rw [List.cons_append, List.cons_append, entryTexts, entryTexts, rest]
    rw [appendCanonicalJsonValue, appendCanonicalJsonValue, texts]
    simp only [List.map_append, List.map_cons]
  | reorder perm => exact append_reorder perm

end Congruence

section Split

theorem kind_eq {u v : UniValue} {a b r s : Bytes} (wu : appendCanonicalJsonValue u = some a)
    (wv : appendCanonicalJsonValue v = some b) (same : a ++ r = b ++ s) : u.kind = v.kind := by
  obtain ⟨c, x, rfl, kind⟩ := text_head wu
  obtain ⟨d, y, rfl, kind'⟩ := text_head wv
  rw [← kind, ← kind', (List.cons.inj same).1]

theorem start_of_written {v : UniValue} {b : Bytes} {close : UInt8} (closes : kindOf close = 6)
    (written : appendCanonicalJsonValue v = some b) : b.head? ≠ none ∧ b.head? ≠ some close := by
  obtain ⟨c, tail, rfl, kind⟩ := text_head written
  refine ⟨Option.some_ne_none c, fun same => ?_⟩
  cases same
  rw [closes] at kind
  cases v <;> cases kind

theorem value_split (u : UniValue) : ∀ v a b r s, appendCanonicalJsonValue u = some a →
    appendCanonicalJsonValue v = some b → Ends r → Ends s → a ++ r = b ++ s → SameValue u v ∧ r = s := by
  induction u using UniValue.by_parts
  all_goals
    intro v a b r s wu wv ends ends' same
    -- The first letter tells the kinds of values apart, so both are of one kind.
    have kind := kind_eq wu wv same
    cases v <;> cases kind
  case null =>
    cases wu
    cases wv
    exact ⟨.refl _, List.append_cancel_left same⟩
  case bool p q =>
    cases wu
    cases wv
    cases p <;> cases q
    · exact ⟨.refl _, List.append_cancel_left same⟩
    · exact absurd (List.cons.inj same).1 (by decide)
    · exact absurd (List.cons.inj same).1 (by decide)
    · exact ⟨.refl _, List.append_cancel_left same⟩
  case num x y =>
    rw [appendCanonicalJsonValue, Option.ite_none_right_eq_some] at wu wv
    obtain ⟨canonical, text⟩ := wu
    obtain ⟨canonical', text'⟩ := wv
    cases text
    cases text'
    -- No letter of a number follows, so that both numbers end at the same place.
    obtain ⟨rfl, rests⟩ := split_letters isNumeric (numeric_of_canonical canonical).2
      (numeric_of_canonical canonical').2 ends ends' same
    exact ⟨.refl _, rests⟩
  case str x y =>
    cases wu
    cases wv
    obtain ⟨rfl, rests⟩ := canonicalJsonString_split same
    exact ⟨.refl _, rests⟩
  case arr values ih values' =>
    rw [appendCanonicalJsonValue, Option.map_eq_some_iff] at wu wv
    obtain ⟨texts, written, rfl⟩ := wu
    obtain ⟨texts', written', rfl⟩ := wv
    rw [List.append_assoc, List.append_assoc, List.append_assoc, List.append_assoc] at same
    obtain ⟨items, rests⟩ := joined_split (R := SameValue) ih (by decide) (appendValues_eq_some written)
      (appendValues_eq_some written') (fun _ _ => start_of_written rfl) (List.cons.inj same).2
    exact ⟨sameValue_items items [], rests⟩
  case obj entries ih entries' =>
    -- The entries in the order of their keys are the same one by one.
    obtain ⟨sorted, ms, perm, written, rfl⟩ := object_of_written wu
    obtain ⟨sorted', ms', perm', written', rfl⟩ := object_of_written wv
    rw [List.cons_append, List.cons_append, List.append_assoc, List.append_assoc] at same
    have item : ∀ e ∈ sorted, ∀ e' a b r s, Member e a → Member e' b → Ends r → Ends s → a ++ r = b ++ s →
        (e.1 = e'.1 ∧ SameValue e.2 e'.2) ∧ r = s := by
      rintro e inside e' _ _ r s ⟨t, text, rfl⟩ ⟨t', text', rfl⟩ ends ends' same
      rw [List.append_assoc, List.append_assoc, List.append_assoc, List.append_assoc] at same
      obtain ⟨key, rests⟩ := canonicalJsonString_split same
      obtain ⟨value, rests⟩ := ih e (perm.mem_iff.mp inside) e'.2 t t' r s text text' ends ends' (List.cons.inj rests).2
      exact ⟨⟨key, value⟩, rests⟩
    have start : ∀ e b, Member e b → b.head? ≠ none ∧ b.head? ≠ some 0x7D := by
      rintro e _ ⟨t, _, rfl⟩
      exact ⟨Option.some_ne_none quote, fun same => absurd (Option.some.inj same) (by decide)⟩
    obtain ⟨items, rests⟩ := joined_split item (by decide) written written' start (List.cons.inj same).2
    exact ⟨.trans (.reorder perm.symm) (.trans (sameValue_entries items []) (.reorder perm')), rests⟩

end Split

def canonicalizeIcuBandJson (v : UniValue) : Option Bytes := appendCanonicalJsonValue v

/-- The bytes stand for a value up to the order of its keys. -/
theorem canonicalizeIcuBandJson_identifies (u v : UniValue) (a b : Bytes)
    (wu : canonicalizeIcuBandJson u = some a) (wv : canonicalizeIcuBandJson v = some b) :
    a = b ↔ SameValue u v := by
  constructor
  · rintro rfl
    have nothing : Ends [] := fun c first => nomatch first
    exact (value_split u v a a [] [] wu wv nothing nothing rfl).1
  · intro same
    have texts := wu.symm.trans ((append_sameValue same).trans wv)
    exact Option.some.inj texts

theorem canonicalizeIcuBandJson_swapped :
    SameValue (.VOBJ [([98], .VNUM [48]), ([97], .VNULL)]) (.VOBJ [([97], .VNULL), ([98], .VNUM [48])]) :=
  (canonicalizeIcuBandJson_identifies _ _ _ _ rfl rfl).mp (by decide +kernel)

end TensorCash.BandJson
