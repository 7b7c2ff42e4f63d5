import ReferenceDraws.Json.Decode
import ReferenceDraws.Proofs.Json.Numbers
import ReferenceDraws.Proofs.Json.Strings
import ReferenceDraws.Proofs.Text.Utf8

/-!
# JSON text reads back

The text of a value is read as that value, in every layout that differs
from the compact one in blanks alone.

* Blanks.  `Layout.IsSpaced` says what a layout may add.
* Steps.  One lemma for each thing that a container's reader can meet: an
  item with another behind it, a last item, and the same for members.
* Values.  `parseValue_renderAt` is the induction over the value.  The
  reader's fuel is measured by the text, so that the bound which
  `Reading.parse` starts with is always enough (`parse_renderAt`).
* Documents.  What a decoder makes of a written document is what it makes
  of the value (`decodeBytes_compact`, `decodeString_pretty`).
-/

namespace ReferenceDraws.Json

open Text (Stream)

/-! ## Blanks -/

/-- Characters that may stand between tokens. -/
def IsBlank (cs : List Char) : Prop := ∀ c ∈ cs, Reading.isGap (some c) = true

theorem isBlank_nil : IsBlank [] := fun _ hc => absurd hc List.not_mem_nil

theorem isBlank_newline (depth : Nat) : IsBlank (newline depth) := by
  intro c hc
  rcases List.mem_cons.1 hc with rfl | hc
  · rfl
  · rw [List.eq_of_mem_replicate hc]
    rfl

/-- A layout adds blanks, and nothing else, to commas and colons. -/
structure Layout.IsSpaced (layout : Layout) : Prop where
  opening : ∀ depth, IsBlank (layout.opening depth)
  between : ∀ depth, ∃ cs, layout.between depth = ',' :: cs ∧ IsBlank cs
  closing : ∀ depth, IsBlank (layout.closing depth)
  colon : ∃ cs, layout.colon = ':' :: cs ∧ IsBlank cs

theorem isSpaced_compact : Layout.compact.IsSpaced where
  opening _ := isBlank_nil
  between _ := ⟨[], rfl, isBlank_nil⟩
  closing _ := isBlank_nil
  colon := ⟨[], rfl, isBlank_nil⟩

theorem isSpaced_indented : Layout.indented.IsSpaced where
  opening depth := isBlank_newline (depth + 1)
  between depth := ⟨newline (depth + 1), rfl, isBlank_newline (depth + 1)⟩
  closing depth := isBlank_newline depth
  colon := ⟨[' '], rfl, by intro c hc; rw [List.mem_singleton.1 hc]; rfl⟩

namespace Reading

/-- Blanks before a token are skipped. -/
theorem skipBlanks_append {cs : List Char} (h : IsBlank cs) (text : Stream) :
    skipBlanks (cs.map some ++ text) = skipBlanks text := by
  have hall : ∀ c ∈ cs.map some, isGap c = true := by
    intro c hc
    obtain ⟨d, hd, rfl⟩ := List.mem_map.1 hc
    exact h d hd
  rw [skipBlanks, List.dropWhile_append_of_pos hall, skipBlanks]

/-- A token is not skipped. -/
theorem skipBlanks_cons {c : Char} (hc : isGap (some c) = false) (text : Stream) :
    skipBlanks (some c :: text) = some c :: text :=
  List.dropWhile_cons_of_neg (by simp [hc])

/-- A token behind blanks is found. -/
theorem skipBlanks_token {cs : List Char} {c : Char} (h : IsBlank cs)
    (hc : isGap (some c) = false) (text : Stream) :
    skipBlanks (cs.map some ++ some c :: text) = some c :: text := by
  rw [skipBlanks_append h, skipBlanks_cons hc]

/-- A token that is no part of a number ends a number, also behind blanks. -/
theorem endsNumber_token {cs : List Char} {c : Char} (h : IsBlank cs)
    (hc : c.isDigit = false ∧ c ≠ '.' ∧ c ≠ 'e' ∧ c ≠ 'E') (text : Stream) :
    EndsNumber (cs.map some ++ some c :: text) := by
  intro d hd
  cases cs with
  | nil =>
    cases hd
    exact hc
  | cons b cs =>
    cases hd
    have hgap : isGap (some d) = true := h d (by simp)
    simp only [isGap, Option.some_inj, Bool.or_eq_true, decide_eq_true_eq] at hgap
    rcases hgap with ((rfl | rfl) | rfl) | rfl <;> decide

/-! ## Steps -/

variable {fuel : Nat} {text rest more : Stream}

/-- Blanks before a value do not matter. -/
theorem parseValue_append {cs : List Char} (h : IsBlank cs) (fuel : Nat) (text : Stream) :
    parseValue fuel (cs.map some ++ text) = parseValue fuel text := by
  cases fuel with
  | zero => rfl
  | succ fuel => rw [parseValue, parseValue, skipBlanks_append h]

theorem parseItems_append {cs : List Char} (h : IsBlank cs) (fuel : Nat) (text : Stream) :
    parseItems fuel (cs.map some ++ text) = parseItems fuel text := by
  cases fuel with
  | zero => rfl
  | succ fuel => rw [parseItems, parseItems, parseValue_append h]

theorem parseMembers_append {cs : List Char} (h : IsBlank cs) (fuel : Nat) (text : Stream) :
    parseMembers fuel (cs.map some ++ text) = parseMembers fuel text := by
  cases fuel with
  | zero => rfl
  | succ fuel => rw [parseMembers, parseMembers, skipBlanks_append h]

/-- An item, and a comma behind it. -/
theorem parseItems_more {item : Reading} (hitem : parseValue fuel text = (item, rest))
    (hcomma : skipBlanks rest = some ',' :: more) :
    parseItems (fuel + 1) text =
      (item :: (parseItems fuel more).1, (parseItems fuel more).2) := by
  simp only [parseItems, hitem, hcomma]

/-- The last item, and the bracket behind it. -/
theorem parseItems_last {item : Reading} (hitem : parseValue fuel text = (item, rest))
    (hbracket : skipBlanks rest = some ']' :: more) :
    parseItems (fuel + 1) text = ([item], true, more) := by
  simp only [parseItems, hitem, hbracket]

/-- A member, and a comma behind it. -/
theorem parseMembers_more {key : String} {value : Reading} {content after : Stream}
    (hkey : string? text = some (some key, rest)) (hcolon : skipBlanks rest = some ':' :: content)
    (hvalue : parseValue fuel content = (value, after))
    (hcomma : skipBlanks after = some ',' :: more) :
    parseMembers (fuel + 1) (some '"' :: text) =
      ((some key, value) :: (parseMembers fuel more).1, (parseMembers fuel more).2) := by
  have hopen : skipBlanks (some '"' :: text) = some '"' :: text := skipBlanks_cons rfl text
  simp only [parseMembers, hopen, hkey, hcolon, hvalue, hcomma]

/-- The last member, and the bracket behind it. -/
theorem parseMembers_last {key : String} {value : Reading} {content after : Stream}
    (hkey : string? text = some (some key, rest)) (hcolon : skipBlanks rest = some ':' :: content)
    (hvalue : parseValue fuel content = (value, after))
    (hbracket : skipBlanks after = some '}' :: more) :
    parseMembers (fuel + 1) (some '"' :: text) = ([(some key, value)], true, more) := by
  have hopen : skipBlanks (some '"' :: text) = some '"' :: text := skipBlanks_cons rfl text
  simp only [parseMembers, hopen, hkey, hcolon, hvalue, hbracket]

/-- An array with items. -/
theorem parseValue_array {opening : List Char} {c : Char} (h : IsBlank opening)
    (hgap : isGap (some c) = false) (hc : c ≠ ']') {items : List Reading} {closed : Bool}
    (hitems : parseItems fuel (some c :: text) = (items, closed, rest)) :
    parseValue (fuel + 1) (some '[' :: (opening.map some ++ some c :: text)) =
      (.array items closed, rest) := by
  have hopen : ∀ text, skipBlanks (some '[' :: text) = some '[' :: text := skipBlanks_cons rfl
  simp only [parseValue, hopen, skipBlanks_token h hgap]
  split
  · rename_i heq
    cases heq
    exact absurd rfl hc
  · rw [hitems]

/-- An object with members. -/
theorem parseValue_object {opening : List Char} (h : IsBlank opening)
    {members : List (Option String × Reading)} {closed : Bool}
    (hmembers : parseMembers fuel (some '"' :: text) = (members, closed, rest)) :
    parseValue (fuel + 1) (some '{' :: (opening.map some ++ some '"' :: text)) =
      (.object members closed, rest) := by
  have hopen : ∀ text, skipBlanks (some '{' :: text) = some '{' :: text := skipBlanks_cons rfl
  have hskip : skipBlanks (opening.map some ++ some '"' :: text) = some '"' :: text :=
    skipBlanks_token h rfl text
  simp only [parseValue, hopen, hskip]
  split
  · rename_i heq
    cases heq
  · rw [hmembers]

end Reading

/-! ## Values -/

/-- All numbers in a value have a text of their own. -/
inductive IsWritable : Json → Prop
  | null : IsWritable .null
  | bool (b : Bool) : IsWritable (.bool b)
  | string (s : String) : IsWritable (.string s)
  | number {n : Number} (h : n.IsWritable) : IsWritable (.number n)
  | array {items : List Json} (h : ∀ x ∈ items, IsWritable x) : IsWritable (.array items)
  | object {members : List (String × Json)} (h : ∀ m ∈ members, IsWritable m.2) :
    IsWritable (.object members)

namespace Reading

variable {layout : Layout} {rest : Stream}

/-- A string with its quotes. -/
theorem parseValue_string (s : String) (fuel : Nat) (rest : Stream) :
    parseValue (fuel + 1) ((renderString s).map some ++ rest) = (.string (some s), rest) := by
  have hopen : ∀ text, skipBlanks (some '"' :: text) = some '"' :: text := skipBlanks_cons rfl
  rw [renderString_eq, List.map_cons, List.cons_append, parseValue, hopen]
  simp only [string?_text]

/-- The text of a value starts with a token that closes no array. -/
theorem exists_head {v : Json} (hv : v.IsWritable) (depth : Nat) :
    ∃ c cs, renderAt layout depth v = c :: cs ∧ isGap (some c) = false ∧ c ≠ ']' := by
  cases hv with
  | null => exact ⟨_, _, rfl, rfl, by decide⟩
  | bool b => cases b <;> exact ⟨_, _, rfl, rfl, by decide⟩
  | string s => exact ⟨_, _, rfl, rfl, by decide⟩
  | number h =>
    obtain ⟨negative, n, htext, -⟩ := exists_unsigned h
    cases negative with
    | true => exact ⟨_, _, htext, rfl, by decide⟩
    | false =>
      obtain ⟨c, cs, hchars⟩ := List.exists_cons_of_ne_nil n.whole.ne_nil
      have hc : c.isDigit = true := n.whole.isDigit c (by simp [hchars])
      refine ⟨c, cs ++ (n.fractionText ++ n.exponentText), ?_, isGap_of_isDigit hc, ?_⟩
      · rw [renderAt, htext, if_neg (by simp), Numeral.text, hchars, List.cons_append]
      · rintro rfl
        cases hc
  | @array items h =>
    rw [renderAt]
    unfold Layout.bracketed
    split <;> exact ⟨_, _, rfl, rfl, by decide⟩
  | @object members h =>
    rw [renderAt]
    unfold Layout.bracketed
    split <;> exact ⟨_, _, rfl, rfl, by decide⟩

theorem separated_cons_cons (separator text next : List Char) (texts : List (List Char)) :
    separated separator (text :: next :: texts) =
      text ++ (separator ++ separated separator (next :: texts)) := by
  rw [separated, List.append_assoc]
  exact List.cons_ne_nil _ _

/-- Texts with separators start as the first of them. -/
theorem exists_separated_cons (separator : List Char) (c : Char) (cs : List Char)
    (texts : List (List Char)) : ∃ tail, separated separator ((c :: cs) :: texts) = c :: tail := by
  cases texts with
  | nil => exact ⟨cs, rfl⟩
  | cons next texts => exact ⟨_, separated_cons_cons separator (c :: cs) next texts⟩

/-- The text of a container with parts, part by part. -/
theorem map_bracketed (depth : Nat) (left right : Char) (part : List Char)
    (parts : List (List Char)) (rest : Stream) :
    (layout.bracketed depth left right (part :: parts)).map some ++ rest =
      some left :: ((layout.opening depth).map some ++
        ((separated (layout.between depth) (part :: parts)).map some ++
          ((layout.closing depth).map some ++ some right :: rest))) := by
  simp [Layout.bracketed]

/-- The parts of a container fit into it with both brackets. -/
theorem length_separated_le (depth : Nat) (left right : Char) (part : List Char)
    (parts : List (List Char)) :
    (separated (layout.between depth) (part :: parts)).length + 2 ≤
      (layout.bracketed depth left right (part :: parts)).length := by
  simp only [Layout.bracketed, List.length_append, List.length_cons, List.length_nil]
  omega

mutual

/-- A value is read from its own text. -/
theorem parseValue_renderAt (hlayout : layout.IsSpaced) (v : Json) (hv : v.IsWritable)
    (depth fuel : Nat) (hfuel : 2 * (renderAt layout depth v).length + 1 ≤ fuel) (rest : Stream)
    (hrest : EndsNumber rest) :
    parseValue fuel ((renderAt layout depth v).map some ++ rest) = (ofJson v, rest) := by
  obtain ⟨fuel, rfl⟩ : ∃ k, fuel = k + 1 := ⟨fuel - 1, by omega⟩
  match v, hv with
  | .null, _ => rfl
  | .bool true, _ => rfl
  | .bool false, _ => rfl
  | .number n, .number h => exact parseValue_number h fuel hrest
  | .string s, _ => exact parseValue_string s fuel rest
  | .array [], _ => rfl
  | .array (item :: items), .array h =>
    obtain ⟨c, cs, hhead, hgap, hbracket⟩ :=
      @exists_head layout item (h item (by simp)) (depth + 1)
    rw [renderAt, renderItems] at hfuel ⊢
    have hlength := Nat.le_trans (Nat.mul_le_mul_left 2 (@length_separated_le layout
      depth '[' ']' (renderAt layout (depth + 1) item) (renderItems layout (depth + 1) items)))
      (Nat.le_of_succ_le_succ hfuel)
    have hitems := parseItems_renderItems hlayout item items h (depth + 1) depth fuel
      (by rw [renderItems]; omega) rest
    obtain ⟨tail, htail⟩ := exists_separated_cons (layout.between depth) c cs
      (renderItems layout (depth + 1) items)
    rw [renderItems, hhead, htail, List.map_cons, List.cons_append] at hitems
    rw [map_bracketed, hhead, htail, List.map_cons, List.cons_append]
    exact parseValue_array (hlayout.opening depth) hgap hbracket hitems
  | .object [], _ => rfl
  | .object ((key, value) :: members), .object h =>
    rw [renderAt, renderMembers] at hfuel ⊢
    have hlength := Nat.le_trans (Nat.mul_le_mul_left 2 (@length_separated_le layout
      depth '{' '}' (renderString key ++ layout.colon ++ renderAt layout (depth + 1) value)
      (renderMembers layout (depth + 1) members))) (Nat.le_of_succ_le_succ hfuel)
    have hmembers := parseMembers_renderMembers hlayout key value members h (depth + 1) depth fuel
      (by rw [renderMembers]; omega) rest
    obtain ⟨tail, htail⟩ := exists_separated_cons (layout.between depth) '"'
      (key.toList.flatMap escapedChar ++ ['"'] ++ layout.colon ++ renderAt layout (depth + 1) value)
      (renderMembers layout (depth + 1) members)
    rw [renderMembers, renderString_eq, List.cons_append, List.cons_append, htail, List.map_cons,
      List.cons_append] at hmembers
    rw [map_bracketed, renderString_eq, List.cons_append, List.cons_append, htail, List.map_cons,
      List.cons_append]
    exact parseValue_object (hlayout.opening depth) hmembers
termination_by fuel

/-- Items are read from their own texts. -/
theorem parseItems_renderItems (hlayout : layout.IsSpaced) (item : Json) (items : List Json)
    (hall : ∀ x ∈ item :: items, x.IsWritable) (depth level fuel : Nat)
    (hfuel : 2 * (separated (layout.between level)
      (renderItems layout depth (item :: items))).length + 2 ≤ fuel) (rest : Stream) :
    parseItems fuel ((separated (layout.between level)
        (renderItems layout depth (item :: items))).map some ++
        ((layout.closing level).map some ++ some ']' :: rest)) =
      (ofItems (item :: items), true, rest) := by
  obtain ⟨fuel, rfl⟩ : ∃ k, fuel = k + 1 := ⟨fuel - 1, by omega⟩
  have hitem : item.IsWritable := hall item (by simp)
  match items with
  | [] =>
    rw [renderItems, renderItems, separated] at hfuel ⊢
    have hend : EndsNumber ((layout.closing level).map some ++ some ']' :: rest) :=
      endsNumber_token (hlayout.closing level) (by decide) rest
    have hread := parseValue_renderAt hlayout item hitem depth fuel (by omega) _ hend
    exact parseItems_last hread (skipBlanks_token (hlayout.closing level) rfl rest)
  | next :: items =>
    obtain ⟨gap, hbetween, hgap⟩ := hlayout.between level
    rw [renderItems, renderItems, separated_cons_cons] at hfuel ⊢
    have hnext := parseItems_renderItems hlayout next items
      (fun x hx => hall x (List.mem_cons_of_mem item hx)) depth level fuel
    rw [renderItems] at hnext
    generalize separated (layout.between level)
      (renderAt layout depth next :: renderItems layout depth items) = texts at hfuel hnext ⊢
    simp only [hbetween, List.length_append, List.length_cons] at hfuel
    have hread := parseValue_renderAt hlayout item hitem depth fuel (by omega)
      (some ',' :: (gap.map some ++ (texts.map some ++
        ((layout.closing level).map some ++ some ']' :: rest))))
      (endsNumber_token isBlank_nil (by decide) _)
    have hmore := parseItems_more hread (skipBlanks_cons rfl _)
    rw [parseItems_append hgap, hnext (by omega) rest] at hmore
    rw [hbetween, ofItems]
    simpa only [List.map_append, List.append_assoc, List.map_cons, List.cons_append] using hmore
termination_by fuel

/-- Members are read from their own texts. -/
theorem parseMembers_renderMembers (hlayout : layout.IsSpaced) (key : String) (value : Json)
    (members : List (String × Json)) (hall : ∀ m ∈ (key, value) :: members, m.2.IsWritable)
    (depth level fuel : Nat)
    (hfuel : 2 * (separated (layout.between level)
      (renderMembers layout depth ((key, value) :: members))).length + 2 ≤ fuel) (rest : Stream) :
    parseMembers fuel ((separated (layout.between level)
        (renderMembers layout depth ((key, value) :: members))).map some ++
        ((layout.closing level).map some ++ some '}' :: rest)) =
      (ofMembers ((key, value) :: members), true, rest) := by
  obtain ⟨fuel, rfl⟩ : ∃ k, fuel = k + 1 := ⟨fuel - 1, by omega⟩
  obtain ⟨blank, hcolon, hblank⟩ := hlayout.colon
  have hvalue : value.IsWritable := hall (key, value) (by simp)
  match members with
  | [] =>
    rw [renderMembers, renderMembers, separated, List.length_append] at hfuel
    have hread := parseValue_renderAt hlayout value hvalue depth fuel (by omega) _
      (endsNumber_token (c := '}') (hlayout.closing level) (by decide) rest)
    rw [← parseValue_append hblank] at hread
    have hlast := parseMembers_last (string?_text _ key) (skipBlanks_cons rfl _) hread
      (skipBlanks_token (hlayout.closing level) rfl rest)
    rw [renderMembers, renderMembers, separated, renderString_eq, hcolon, ofMembers, ofMembers]
    simpa only [List.map_append, List.append_assoc, List.map_cons, List.cons_append] using hlast
  | (next, content) :: members =>
    obtain ⟨gap, hbetween, hgap⟩ := hlayout.between level
    rw [renderMembers, renderMembers, separated_cons_cons] at hfuel ⊢
    have hnext := parseMembers_renderMembers hlayout next content members
      (fun m hm => hall m (List.mem_cons_of_mem _ hm)) depth level fuel
    rw [renderMembers] at hnext
    generalize separated (layout.between level)
      ((renderString next ++ layout.colon ++ renderAt layout depth content) ::
        renderMembers layout depth members) = texts at hfuel hnext ⊢
    simp only [hbetween, List.length_append, List.length_cons] at hfuel
    have hread := parseValue_renderAt hlayout value hvalue depth fuel (by omega)
      (some ',' :: (gap.map some ++ (texts.map some ++
        ((layout.closing level).map some ++ some '}' :: rest))))
      (endsNumber_token isBlank_nil (by decide) _)
    rw [← parseValue_append hblank] at hread
    have hmore := parseMembers_more (string?_text _ key) (skipBlanks_cons rfl _) hread
      (skipBlanks_cons rfl _)
    rw [parseMembers_append hgap, hnext (by omega) rest] at hmore
    rw [renderString_eq, hcolon, hbetween, ofMembers]
    simpa only [List.map_append, List.append_assoc, List.map_cons, List.cons_append] using hmore
termination_by fuel

end

/-- A text that is nothing but a value is read as that value. -/
theorem parse_renderAt (hlayout : layout.IsSpaced) {v : Json} (hv : v.IsWritable) (depth : Nat) :
    parse ((renderAt layout depth v).map some) = (ofJson v, []) := by
  have hread := parseValue_renderAt hlayout v hv depth
    (2 * (renderAt layout depth v).length + 1) (Nat.le_refl _) [] (fun c hc => by cases hc)
  rw [List.append_nil] at hread
  rwa [parse, List.length_map]

end Reading

/-! ## Documents -/

/-- A decoder of a document gets the value that was written. -/
theorem decodeStream_renderAt {α : Type} (decode : Decoder α) {layout : Layout}
    (hlayout : layout.IsSpaced) {v : Json} (hv : v.IsWritable) (depth : Nat) :
    decodeStream decode ((renderAt layout depth v).map some) = decode (.ofJson v) := by
  rw [decodeStream, Reading.parse_renderAt hlayout hv]
  cases h : decode (.ofJson v) with
  | error e => simp only [h]; rfl
  | ok x => simp only [h]; rfl

/-- A compact document in bytes. -/
theorem decodeBytes_compact {α : Type} (decode : Decoder α) {v : Json} (hv : v.IsWritable) :
    decodeBytes decode (Text.encode v.compact) = decode (.ofJson v) := by
  rw [decodeBytes, Text.decode_encode, Text.stream, compact, String.toList_ofList]
  exact decodeStream_renderAt decode isSpaced_compact hv 0

/-- An indented document in characters. -/
theorem decodeString_pretty {α : Type} (decode : Decoder α) {v : Json} (hv : v.IsWritable) :
    decodeString decode v.pretty = decode (.ofJson v) := by
  rw [decodeString, Text.stream, pretty, String.toList_ofList]
  exact decodeStream_renderAt decode isSpaced_indented hv 0

end ReferenceDraws.Json
