import PipeLens.Cursor
import PipeLens.JsonDump
import PipeLens.Proof.StoreRoundTrip

/-!
# The cursor codec

A cursor that was encoded is decoded again, whatever the length of its payload: what is taken
off the end can be put back from the length alone. The decoder reads any other text as well.
What it lets through has a timezone and a run id that is at least one, but it has no upper
bound, it counts `true` as a number, and it does not expect JSON to be nested too deeply.

Everything follows from two facts, which texts are decoded to a cursor and which ones end in a
`RecursionError`.
-/

namespace PipeLens.Proof

open Cursor

variable {runtime : CursorRuntime}

/-! ## What the decoder does -/

/-- Only a list gives two values of which the second is no string. -/
theorem unpackPair_some {json a b : Json} (h : unpackPair json = some (a, b)) :
    json = .list [a, b] ∨ ∃ s, b = .str s := by
  unfold unpackPair at h
  split at h
  · rename_i x y
    have hpair := Option.some.inj h
    rw [(Prod.mk.inj hpair).1, (Prod.mk.inj hpair).2]
    exact Or.inl rfl
  · split at h
    · exact Or.inr ⟨_, (Prod.mk.inj (Option.some.inj h)).2.symm⟩
    · exact nomatch h
  · split at h
    · exact Or.inr ⟨_, (Prod.mk.inj (Option.some.inj h)).2.symm⟩
    · exact nomatch h
  · exact nomatch h

theorem checkCursor_some {createdAt : Datetime} {runId : Json} {cursor : TimedCursor} :
    checkCursor createdAt runId = some cursor
      ↔ cursor.createdAt = createdAt ∧ createdAt.offset.isSome = true
        ∧ PyInt.ofJson runId = some cursor.runId ∧ 1 ≤ cursor.runId.value := by
  unfold checkCursor
  constructor
  · intro h
    split at h
    · rename_i hoffset hint
      split at h
      · exact nomatch h
      · rename_i hvalue
        rw [← Option.some.inj h]
        exact ⟨rfl, by rw [hoffset]; rfl, hint, Int.not_lt.mp hvalue⟩
    · exact nomatch h
  · intro h
    obtain ⟨hcreated, haware, hint, hvalue⟩ := h
    obtain ⟨offset, hoffset⟩ := Option.isSome_iff_exists.mp haware
    rw [hoffset, hint]
    show (if cursor.runId.value < 1 then none else some _) = some cursor
    rw [if_neg (by omega), ← hcreated]

/-- **Which texts are decoded to a cursor.** -/
theorem decode_cursor_iff {value : String} {cursor : TimedCursor} :
    decodeAnalysisCursor runtime value = .cursor cursor
      ↔ ∃ decoded text runId, cursorBytes value = some decoded
        ∧ runtime.loads decoded = .value (.list [.str text, runId])
        ∧ runtime.fromisoformat text = some cursor.createdAt
        ∧ cursor.createdAt.offset.isSome = true
        ∧ PyInt.ofJson runId = some cursor.runId ∧ 1 ≤ cursor.runId.value := by
  constructor
  · intro h
    unfold decodeAnalysisCursor at h
    split at h
    · exact nomatch h
    · rename_i decoded hbytes
      split at h
      · exact nomatch h
      · exact nomatch h
      · rename_i json hloads
        split at h
        · exact nomatch h
        · rename_i createdAtValue runId hpair
          split at h
          · exact nomatch h
          · rename_i read hread
            have hcursor := DecodedCursor.cursor.inj h
            rw [hcursor] at hread
            obtain ⟨createdAt, hcreated, hcheck⟩ := Option.bind_eq_some_iff.mp hread
            obtain ⟨hsame, haware, hint, hvalue⟩ := checkCursor_some.mp hcheck
            have hlist : json = .list [createdAtValue, runId] := by
              rcases unpackPair_some hpair with hlist | hstring
              · exact hlist
              · obtain ⟨s, hs⟩ := hstring
                rw [hs] at hint
                exact nomatch hint
            cases createdAtValue with
            | str text =>
                rw [hlist] at hloads
                exact ⟨decoded, text, runId, hbytes, hloads, hsame ▸ hcreated, hsame ▸ haware,
                  hint, hvalue⟩
            | _ => exact nomatch hcreated
  · intro h
    obtain ⟨decoded, text, runId, hbytes, hloads, hcreated, haware, hint, hvalue⟩ := h
    have hcheck : checkCursor cursor.createdAt runId = some cursor :=
      checkCursor_some.mpr ⟨rfl, haware, hint, hvalue⟩
    have hread : (parseCreatedAt runtime (.str text)).bind (checkCursor · runId)
        = some cursor := by
      rw [parseCreatedAt, hcreated]
      exact hcheck
    unfold decodeAnalysisCursor
    rw [hbytes]
    dsimp only
    rw [hloads]
    dsimp only [unpackPair]
    rw [hread]

/-- Which texts end in a `RecursionError`. -/
theorem decode_recursion_iff {value : String} :
    decodeAnalysisCursor runtime value = .recursionError
      ↔ ∃ decoded, cursorBytes value = some decoded ∧ runtime.loads decoded = .tooDeep := by
  constructor
  · intro h
    unfold decodeAnalysisCursor at h
    split at h
    · exact nomatch h
    · rename_i decoded hbytes
      split at h
      · rename_i hloads
        exact ⟨decoded, hbytes, hloads⟩
      · exact nomatch h
      · split at h
        · exact nomatch h
        · split at h
          · exact nomatch h
          · exact nomatch h
  · intro h
    obtain ⟨decoded, hbytes, hloads⟩ := h
    unfold decodeAnalysisCursor
    rw [hbytes]
    dsimp only
    rw [hloads]

/-! ## The round trip -/

theorem ofJson_toJson (n : PyInt) : PyInt.ofJson n.toJson = some n := by
  cases n with
  | int n => rfl
  | bool b => rfl

/-- An encoded cursor is decoded. -/
theorem decode_encode {cursor : TimedCursor} (haware : cursor.createdAt.offset.isSome = true)
    (hvalue : 1 ≤ cursor.runId.value) (hwritable : Writable cursor.runId) :
    ∃ text, encodeAnalysisCursor runtime cursor = some text
      ∧ decodeAnalysisCursor runtime text = .cursor cursor := by
  refine ⟨_, if_pos hwritable, ?_⟩
  rw [decode_cursor_iff]
  refine ⟨_, runtime.isoformat cursor.createdAt, cursor.runId.toJson, ?_,
    runtime.loads_pair _ _ (runtime.isoChars _) hwritable,
    runtime.fromisoformat_isoformat _ haware, haware, ofJson_toJson _, hvalue⟩
  rw [cursorBytes, String.toList_ofList, Base64.decode_fill_strip]

/-- Encoding and decoding gives the cursor back. -/
def RoundTrips (runtime : CursorRuntime) (cursor : TimedCursor) : Prop :=
  ∃ text, encodeAnalysisCursor runtime cursor = some text
    ∧ decodeAnalysisCursor runtime text = .cursor cursor

/-! ## What a client can send -/

/-- The largest key of the store. -/
def maxKey : Int := 9223372036854775807

/-- A cursor that `list_page` can be called with. -/
def Usable (cursor : TimedCursor) : Prop :=
  cursor.createdAt.offset.isSome = true
    ∧ ∃ n, cursor.runId = .int n ∧ 1 ≤ n ∧ n ≤ maxKey

/-- A text is refused with status 422, or it is decoded to a cursor that can be used. -/
def RefusedOrUsable (runtime : CursorRuntime) (value : String) : Prop :=
  decodeAnalysisCursor runtime value ≠ .unprocessable →
    ∃ cursor, decodeAnalysisCursor runtime value = .cursor cursor ∧ Usable cursor

/-- The JSON in a text is not nested too deeply, and if it is a pair of an aware datetime and
something, then that is neither `true` nor an integer beyond the largest key. -/
def Tractable (runtime : CursorRuntime) (value : String) : Prop :=
  ∀ decoded, cursorBytes value = some decoded →
    runtime.loads decoded ≠ .tooDeep
      ∧ ∀ text runId createdAt, runtime.loads decoded = .value (.list [.str text, runId]) →
        runtime.fromisoformat text = some createdAt → createdAt.offset.isSome = true →
          runId ≠ .bool true ∧ ∀ n, runId = .int n → n ≤ maxKey

theorem refusedOrUsable_of_tractable {value : String} (h : Tractable runtime value) :
    RefusedOrUsable runtime value := by
  intro hnot
  cases hdecode : decodeAnalysisCursor runtime value with
  | unprocessable => exact absurd hdecode hnot
  | recursionError =>
      obtain ⟨decoded, hbytes, hdeep⟩ := decode_recursion_iff.mp hdecode
      exact absurd hdeep (h decoded hbytes).1
  | cursor cursor =>
      obtain ⟨decoded, text, runId, hbytes, hloads, hcreated, haware, hint, hvalue⟩ :=
        decode_cursor_iff.mp hdecode
      obtain ⟨htrue, hbound⟩ := (h decoded hbytes).2 text runId _ hloads hcreated haware
      refine ⟨cursor, rfl, haware, ?_⟩
      cases runId with
      | int n =>
          have hn : .int n = cursor.runId := Option.some.inj hint
          rw [← hn] at hvalue ⊢
          exact ⟨n, rfl, hvalue, hbound n rfl⟩
      | bool b =>
          have hb : .bool b = cursor.runId := Option.some.inj hint
          rw [← hb] at hvalue
          cases b with
          | true => exact absurd rfl htrue
          | false => exact absurd hvalue (by decide)
      | _ => exact nomatch hint

theorem tractable_of_refusedOrUsable {value : String} (h : RefusedOrUsable runtime value) :
    Tractable runtime value := by
  intro decoded hbytes
  constructor
  · intro hdeep
    have hdecode := decode_recursion_iff.mpr ⟨decoded, hbytes, hdeep⟩
    obtain ⟨cursor, hcursor, _⟩ := h (by rw [hdecode]; exact nofun)
    rw [hdecode] at hcursor
    exact nomatch hcursor
  · intro text runId createdAt hloads hcreated haware
    -- an id that is at least one and of either kind would be let through
    have hthrough (n : PyInt) (hint : PyInt.ofJson runId = some n) (hvalue : 1 ≤ n.value) :
        ∃ m, n = .int m ∧ 1 ≤ m ∧ m ≤ maxKey := by
      have hdecode : decodeAnalysisCursor runtime value = .cursor ⟨createdAt, n⟩ :=
        decode_cursor_iff.mpr ⟨decoded, text, runId, hbytes, hloads, hcreated, haware, hint, hvalue⟩
      obtain ⟨cursor, hcursor, husable⟩ := h (by rw [hdecode]; exact nofun)
      have hsame := DecodedCursor.cursor.inj (hdecode.symm.trans hcursor)
      rw [← hsame] at husable
      exact husable.2
    constructor
    · intro htrue
      rw [htrue] at hthrough
      obtain ⟨m, hm, _⟩ := hthrough (.bool true) rfl (by decide)
      exact nomatch hm
    · intro n hn
      rw [hn] at hthrough
      by_cases hpos : 1 ≤ n
      · obtain ⟨m, hm, _, hbound⟩ := hthrough (.int n) rfl hpos
        rw [PyInt.int.inj hm]
        exact hbound
      · have hkey : (0 : Int) ≤ maxKey := by decide
        omega

/-! ## A runtime -/

open JsonText

/-- A pair without spaces is read. -/
theorem loads_compact (floats : FloatText) (v w : Json) :
    Json.loads floats ('[' :: (Json.dumps floats v ++ ',' :: (Json.dumps floats w ++ [']'])))
      = some (.list [v, w]) := by
  have hv := @Json.length_dumps_pos floats v
  obtain ⟨n, hn⟩ : ∃ n, (Json.dumps floats v ++ ',' :: (Json.dumps floats w ++ [']'])).length
      = n + 2 := by
    refine ⟨(Json.dumps floats v).length + (Json.dumps floats w).length, ?_⟩
    simp only [List.length_append, List.length_cons, List.length_nil]
    omega
  have hlengths : (Json.dumps floats v).length + (Json.dumps floats w).length = n := by
    simp only [List.length_append, List.length_cons, List.length_nil] at hn
    omega
  have hfirst := (Json.readsBack floats (n + 2)).value v (',' :: (Json.dumps floats w ++ [']']))
    (by omega) (Json.notNumber_cons (by decide) _)
  have hsecond := (Json.readsBack floats (n + 1)).value w [']'] (by omega)
    (Json.notNumber_cons (by decide) [])
  have hmore : Json.readMoreItems floats (n + 2) (',' :: (Json.dumps floats w ++ [']']))
      = some ([w], []) := by
    have hclose (text : List Char) : expect [']'] (Json.skipSpace (',' :: text)) = none := rfl
    have hcomma (text : List Char) : (expect [','] (Json.skipSpace (',' :: text))).bind
        (Json.readValue floats (n + 1)) = Json.readValue floats (n + 1) text := rfl
    rw [Json.readMoreItems, hclose]
    dsimp only
    rw [hcomma, hsecond]
    rfl
  have hitems : Json.readItems floats (n + 3)
      (Json.dumps floats v ++ ',' :: (Json.dumps floats w ++ [']'])) = some ([v, w], []) := by
    rw [Json.readItems, Json.skipSpace_dumps, Json.expect_bracket_dumps]
    dsimp only
    rw [hfirst]
    dsimp only
    rw [hmore]
    rfl
  have hvalue : Json.readValue floats (n + 4)
      ('[' :: (Json.dumps floats v ++ ',' :: (Json.dumps floats w ++ [']'])))
      = some (.list [v, w], []) := by
    have hopen (text : List Char) : Json.skipSpace ('[' :: text) = '[' :: text := rfl
    rw [Json.readValue, hopen]
    dsimp only
    rw [if_neg (by decide), if_pos rfl, hitems]
    rfl
  unfold Json.loads
  rw [List.length_cons, hn, hvalue]
  rfl

theorem utf8_ascii {text : List Char} (h : ∀ c ∈ text, c.toNat < 128) :
    (utf8 text).map (fun b => Char.ofNat b.toNat) = text := by
  induction text with
  | nil => rfl
  | cons c text ih =>
      have hc : c.toNat < 128 := h c List.mem_cons_self
      have hsize : c.utf8Size = 1 := by
        rw [Char.utf8Size_eq_one_iff, UInt32.le_iff_toNat_le]
        exact Nat.le_of_lt_succ hc
      have hbyte : c.val.toUInt8.toNat = c.toNat := by
        rw [UInt32.toNat_toUInt8]
        exact Nat.mod_eq_of_lt (Nat.lt_of_lt_of_le hc (by decide) : c.toNat < 2 ^ 8)
      rw [utf8, List.flatMap_cons, String.utf8EncodeChar_eq_singleton hsize, List.map_append,
        List.map_singleton, hbyte, Char.ofNat_toNat]
      exact congrArg (c :: ·) (ih fun d hd => h d (List.mem_cons_of_mem c hd))

theorem isIsoChar_lt {c : Char} (h : isIsoChar c = true) : c.toNat < 127 := by
  rcases Bool.or_eq_true_iff.mp h with hdigit | hother
  · have hnine : '9'.toNat = 57 := rfl
    have hrange := Char.isDigit_iff_toNat.mp hdigit
    omega
  · have hmem := List.contains_iff_mem.mp hother
    simp only [List.mem_cons, List.not_mem_nil, or_false] at hmem
    rcases hmem with rfl | rfl | rfl | rfl | rfl <;> decide

/-- Such a character is written as it stands. -/
theorem escapeChar_iso {c : Char} (h : isIsoChar c = true) : escapeChar c = [c] := by
  rcases Bool.or_eq_true_iff.mp h with hdigit | hother
  · have hzero : '0'.toNat = 48 := rfl
    have hrange := Char.isDigit_iff_toNat.mp hdigit
    have hne {d : Char} (hd : d.isDigit = false) : c ≠ d := by
      intro heq
      rw [heq, hd] at hdigit
      exact nomatch hdigit
    rw [escapeChar, if_neg (hne (by decide)), if_neg (hne (by decide)), if_neg (hne (by decide)),
      if_neg (hne (by decide)), if_neg (hne (by decide)), if_neg (by omega), if_neg (by omega),
      if_neg (by omega)]
  · have hmem := List.contains_iff_mem.mp hother
    simp only [List.mem_cons, List.not_mem_nil, or_false] at hmem
    rcases hmem with rfl | rfl | rfl | rfl | rfl <;> rfl

theorem flatMap_iso {text : List Char} {f : Char → List Char} (h : ∀ c ∈ text, f c = [c]) :
    text.flatMap f = text := by
  rw [List.flatMap_congr h, List.flatMap_singleton']

theorem dumpsText_iso {text : String} (h : ∀ c ∈ text.toList, isIsoChar c = true) :
    dumpsText text = '"' :: (text.toList ++ ['"']) := by
  have hascii : ∀ c ∈ text.toList, asciiChar c = [c] := by
    intro c hc
    have hlt := isIsoChar_lt (h c hc)
    rw [asciiChar, if_neg (by omega), escapeChar_iso (h c hc)]
  rw [dumpsText, flatMap_iso hascii]

theorem encodeString_iso {text : String} (h : ∀ c ∈ text.toList, isIsoChar c = true) :
    encodeString text = '"' :: (text.toList ++ ['"']) := by
  rw [encodeString, flatMap_iso fun c hc => escapeChar_iso (h c hc)]

theorem dumpsInt_eq (n : PyInt) : dumpsInt n = Json.dumps Json.fractionText n.toJson := by
  cases n with
  | int n => rfl
  | bool b => cases b <;> rfl

/-- Wall clock and offset as integers, for any datetime but the epoch. -/
def plainIso (d : Datetime) : List Char :=
  encodeInt d.wall ++
    match d.offset with
    | none => []
    | some offset => 'T' :: encodeInt offset

def parsePlainIso (text : List Char) : Option Datetime :=
  match decodeInt text with
  | some (wall, 'T' :: rest) =>
      match decodeInt rest with
      | some (offset, []) => Datetime.of? wall (some offset)
      | _ => none
  | _ => none

def epochText : String := "1970-01-01T00:00:00+00:00"

def simpleIso (d : Datetime) : String :=
  if d = epoch then epochText else String.ofList (plainIso d)

def parseSimpleIso (text : String) : Option Datetime :=
  if text = epochText then some epoch else parsePlainIso text.toList

theorem encodeInt_iso (n : Int) : ∀ c ∈ encodeInt n, isIsoChar c = true := by
  intro c hc
  cases n with
  | ofNat n => rw [isIsoChar, isDigit_toDigits n c hc, Bool.true_or]
  | negSucc n =>
      rcases List.mem_cons.mp hc with hminus | hdigit
      · rw [hminus]
        decide
      · rw [isIsoChar, isDigit_toDigits (n + 1) c hdigit, Bool.true_or]

theorem simpleIso_chars (d : Datetime) : ∀ c ∈ (simpleIso d).toList, isIsoChar c = true := by
  unfold simpleIso
  split
  · have hall : epochText.toList.all isIsoChar = true := rfl
    exact List.all_eq_true.mp hall
  · rw [String.toList_ofList]
    refine List.forall_mem_append.mpr ⟨encodeInt_iso _, ?_⟩
    cases d.offset with
    | none => exact nofun
    | some offset => exact List.forall_mem_cons.mpr ⟨by decide, encodeInt_iso offset⟩

theorem parsePlainIso_plainIso {d : Datetime} (haware : d.offset.isSome = true) :
    parsePlainIso (plainIso d) = some d := by
  obtain ⟨offset, hoffset⟩ := Option.isSome_iff_exists.mp haware
  have hwall := decodeInt_encodeInt d.wall
    (noDigit_append (by decide : ['T'].head?.map Char.isDigit = some false) (encodeInt offset))
  have hend := decodeInt_encodeInt offset (nofun : NoDigit [])
  rw [List.append_nil] at hend
  unfold parsePlainIso plainIso
  rw [hoffset]
  dsimp only
  rw [← List.singleton_append, hwall]
  show (match decodeInt (encodeInt offset) with
    | some (offset, []) => Datetime.of? d.wall (some offset)
    | _ => none) = _
  rw [hend]
  show Datetime.of? d.wall (some offset) = some d
  rw [of?_eq d.inRange, ← hoffset]

theorem parseSimpleIso_simpleIso {d : Datetime} (haware : d.offset.isSome = true) :
    parseSimpleIso (simpleIso d) = some d := by
  unfold simpleIso
  split
  · rename_i hepoch
    rw [hepoch]
    exact if_pos rfl
  · have hplain := parsePlainIso_plainIso haware
    have hne : String.ofList (plainIso d) ≠ epochText := by
      intro htext
      have hnone : parsePlainIso epochText.toList = none := by decide
      rw [← htext, String.toList_ofList, hplain] at hnone
      exact nomatch hnone
    rw [parseSimpleIso, if_neg hne, String.toList_ofList, hplain]

/-- JSON in ASCII, with the reader of `JsonDump`. -/
def asciiLoads (bytes : List UInt8) : JsonLoaded :=
  match Json.loads Json.fractionText (bytes.map fun b => Char.ofNat b.toNat) with
  | some value => .value value
  | none => .invalid

theorem dumpsInt_ascii (n : PyInt) : ∀ c ∈ dumpsInt n, c.toNat < 128 := by
  cases n with
  | int n =>
      intro c hc
      have hlt := isIsoChar_lt (encodeInt_iso n c hc)
      omega
  | bool b =>
      have hall : (dumpsInt (.bool b)).all (fun c => decide (c.toNat < 128)) = true := by
        cases b <;> rfl
      intro c hc
      exact of_decide_eq_true (List.all_eq_true.mp hall c hc)

theorem dumpsPair_ascii {text : String} (h : ∀ c ∈ text.toList, isIsoChar c = true) (n : PyInt) :
    ∀ c ∈ dumpsPair text n, c.toNat < 128 := by
  have htext : ∀ c ∈ text.toList, c.toNat < 128 := by
    intro c hc
    have hlt := isIsoChar_lt (h c hc)
    omega
  have hquote : ∀ c ∈ ['"'], c.toNat < 128 := List.forall_mem_singleton.mpr (by decide)
  have hclose : ∀ c ∈ [']'], c.toNat < 128 := List.forall_mem_singleton.mpr (by decide)
  rw [dumpsPair, dumpsText_iso h]
  refine List.forall_mem_cons.mpr ⟨by decide, ?_⟩
  refine List.forall_mem_append.mpr ⟨List.forall_mem_cons.mpr ⟨by decide, ?_⟩, ?_⟩
  · exact List.forall_mem_append.mpr ⟨htext, hquote⟩
  · refine List.forall_mem_cons.mpr ⟨by decide, ?_⟩
    exact List.forall_mem_append.mpr ⟨dumpsInt_ascii n, hclose⟩

theorem asciiLoads_pair {text : String} {n : PyInt}
    (h : ∀ c ∈ text.toList, isIsoChar c = true) :
    asciiLoads (utf8 (dumpsPair text n)) = .value (.list [.str text, n.toJson]) := by
  have hread := loads_compact Json.fractionText (.str text) n.toJson
  have htext : Json.dumps Json.fractionText (.str text) = dumpsText text := by
    rw [Json.dumps, encodeString_iso h, dumpsText_iso h]
  rw [htext, ← dumpsInt_eq] at hread
  unfold asciiLoads
  rw [utf8_ascii (dumpsPair_ascii h n), dumpsPair, hread]

/-- A runtime that spells the epoch like Python. -/
def simpleRuntime : CursorRuntime where
  loads := asciiLoads
  isoformat := simpleIso
  fromisoformat := parseSimpleIso
  isoChars := simpleIso_chars
  fromisoformat_isoformat _ haware := parseSimpleIso_simpleIso haware
  loads_pair _ _ h _ := asciiLoads_pair h

/-! ## The codec -/

/-- **The codec.** A cursor with a timezone and a run id of at least one is decoded again exactly
if its run id can be written at all, and a text is refused or gives a cursor that can be used
exactly if it is tractable. -/
theorem cursor_codec (runtime : CursorRuntime) :
    (∀ cursor : TimedCursor, cursor.createdAt.offset.isSome = true → 1 ≤ cursor.runId.value →
      (RoundTrips runtime cursor ↔ Writable cursor.runId))
      ∧ ∀ value, RefusedOrUsable runtime value ↔ Tractable runtime value := by
  constructor
  · intro cursor haware hvalue
    constructor
    · intro h
      obtain ⟨text, hencode, _⟩ := h
      by_contra hwritable
      rw [encodeAnalysisCursor, if_neg hwritable] at hencode
      exact nomatch hencode
    · intro hwritable
      exact decode_encode haware hvalue hwritable
  · intro value
    exact ⟨tractable_of_refusedOrUsable, refusedOrUsable_of_tractable⟩

theorem cursor_codec_epoch : RoundTrips simpleRuntime ⟨epoch, .int 7⟩ :=
  ((cursor_codec simpleRuntime).1 ⟨epoch, .int 7⟩ rfl (by decide)).mpr (by decide)

/-- A cursor with the first integer that is no key. -/
def oversizedCursor : TimedCursor := ⟨epoch, .int (maxKey + 1)⟩

theorem oversizedCursor_writable : Writable oversizedCursor.runId := by decide

/-- The text of that cursor is let through. -/
theorem oversized_cursor_accepted :
    ∃ text, decodeAnalysisCursor simpleRuntime text = .cursor oversizedCursor
      ∧ ¬ RefusedOrUsable simpleRuntime text := by
  obtain ⟨text, _, hdecode⟩ := @decode_encode simpleRuntime oversizedCursor rfl (by decide)
    oversizedCursor_writable
  refine ⟨text, hdecode, ?_⟩
  intro h
  obtain ⟨cursor, hcursor, _, n, hn, _, hbound⟩ := h (by rw [hdecode]; exact nofun)
  have hsame := DecodedCursor.cursor.inj (hdecode.symm.trans hcursor)
  rw [← hsame] at hn
  have hkey : maxKey + 1 = n := PyInt.int.inj hn
  omega

end PipeLens.Proof
