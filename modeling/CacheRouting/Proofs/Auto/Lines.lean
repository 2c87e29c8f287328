import CacheRouting.Proofs.Auto.Listing
import CacheRouting.Proofs.Number.Decimal

/-!
# Lines of a listing

Every line of a listing is read on its own as long as there are few of them.  Of more
lines all from the last that is still split off are one piece.  A record at the front
of it is kept if only blanks are behind, for these are removed around the count, and
is lost otherwise, for no number has blanks inside.
-/

namespace CacheRouting

namespace Listing

open Text (IsAllBlank)

theorem splitAtMost_intercalate_of_le {separator : Char} {lines : List (List Char)} {limit : Nat}
    (someLines : lines ≠ []) (apart : ∀ line ∈ lines, separator ∉ line)
    (few : lines.length ≤ limit) :
    splitAtMost separator limit ([separator].intercalate lines) = lines := by
  induction lines generalizing limit with
  | nil => exact absurd rfl someLines
  | cons line rest ih =>
      obtain ⟨lineApart, restApart⟩ := List.forall_mem_cons.mp apart
      cases rest with
      | nil =>
          obtain ⟨limit, rfl⟩ := Nat.exists_eq_add_one_of_ne_zero (Nat.ne_zero_of_lt few)
          rw [List.intercalate_singleton, splitAtMost_of_notMem limit lineApart]
      | cons next rest =>
          obtain ⟨limit, rfl⟩ := Nat.exists_eq_add_of_le' (Nat.le_trans (by simp) few : 2 ≤ limit)
          have fewer : (next :: rest).length ≤ limit + 1 := Nat.le_of_succ_le_succ few
          rw [List.intercalate_cons_cons, List.append_assoc, List.singleton_append,
            splitAtMost_append_cons limit lineApart, ih (by simp) restApart fewer]

theorem splitAtMost_intercalate_of_lt {separator : Char} {lines : List (List Char)} {limit : Nat}
    (apart : ∀ line ∈ lines, separator ∉ line) (many : limit < lines.length) :
    splitAtMost separator (limit + 1) ([separator].intercalate lines) =
      lines.take limit ++ [[separator].intercalate (lines.drop limit)] := by
  -- on how many pieces can still be split off; when none can, all lines are left in one piece
  induction limit generalizing lines with
  | zero => rfl
  | succ limit ih =>
      match lines, apart, many with
      | line :: next :: rest, apart, many =>
          obtain ⟨lineApart, restApart⟩ := List.forall_mem_cons.mp apart
          rw [List.intercalate_cons_cons, List.append_assoc, List.singleton_append,
            splitAtMost_append_cons limit lineApart, ih restApart (Nat.lt_of_succ_lt_succ many),
            List.take_succ_cons, List.drop_succ_cons, List.cons_append]

theorem parse_of_line {line : String} (isLine : '\n' ∉ line.toList) :
    parse line = (readRecord? line.toList).toList := by
  rw [parse, pieceLimit, splitAtMost_of_notMem 16 isLine, List.filterMap_eq_flatMap_toList]
  exact List.flatMap_singleton ..

theorem filterMap_readRecord? {lines : List String} (areLines : ∀ line ∈ lines, '\n' ∉ line.toList) :
    (lines.map String.toList).filterMap readRecord? = lines.flatMap parse := by
  rw [List.filterMap_map, List.filterMap_eq_flatMap_toList]
  apply List.flatMap_congr
  exact fun line member => (parse_of_line (areLines line member)).symm

theorem parse_of_few {lines : List String} (areLines : ∀ line ∈ lines, '\n' ∉ line.toList)
    (few : lines.length ≤ pieceLimit) :
    parse ("\n".intercalate lines) = lines.flatMap parse := by
  by_cases isEmpty : lines = []
  · subst isEmpty
    decide
  · have pieces := splitAtMost_intercalate_of_le (by simpa using isEmpty)
      (List.forall_mem_map.mpr areLines) (by simpa using few)
    rw [← filterMap_readRecord? areLines, ← pieces, parse, String.toList_intercalate]
    rfl

/-- The lines from the last piece on, which are not split any more. -/
def remainder (lines : List String) : String :=
  "\n".intercalate (lines.drop 16)

theorem parse_of_many {lines : List String} (areLines : ∀ line ∈ lines, '\n' ∉ line.toList)
    (many : pieceLimit < lines.length) :
    parse ("\n".intercalate lines) =
      (lines.take 16).flatMap parse ++ (readRecord? (remainder lines).toList).toList := by
  have enough : 16 < (lines.map String.toList).length := by
    rw [List.length_map]
    exact Nat.lt_of_succ_lt many
  have firstLines : ∀ line ∈ lines.take 16, '\n' ∉ line.toList :=
    fun line member => areLines line (List.mem_of_mem_take member)
  have pieces := splitAtMost_intercalate_of_lt (List.forall_mem_map.mpr areLines) enough
  rw [← filterMap_readRecord? firstLines, parse, String.toList_intercalate]
  change (splitAtMost '\n' 17 (['\n'].intercalate (lines.map String.toList))).filterMap _ = _
  rw [pieces, List.filterMap_append, List.map_take, remainder, String.toList_intercalate,
    List.map_drop]
  congr 1

theorem readCount?_append_newline {count : List Char} {value : Float} (isCount : IsCount count value)
    (later : List Char) :
    readCount? (count ++ '\n' :: later) = if IsAllBlank later then some value else none := by
  obtain ⟨number, read, isValue⟩ := isCount
  split
  · next allBlank =>
    have blankBehind : IsAllBlank ('\n' :: later) := Text.isAllBlank_cons.mpr ⟨rfl, allBlank⟩
    rw [readCount?_eq_some_iff, IsCount, Text.trim_append_of_isAllBlank count blankBehind]
    exact ⟨number, read, isValue⟩
  · next someBehind =>
    have someBefore : ¬ IsAllBlank count := by
      intro allBlank
      rw [Text.trim_eq_nil_of_isAllBlank allBlank] at read
      cases read
    -- the line break stands between characters that are kept, and no number has one
    have kept := Text.mem_trim_of_between '\n' someBefore someBehind
    rw [Option.eq_none_iff_forall_ne_some]
    intro other isRead
    obtain ⟨otherNumber, otherRead, -⟩ := readCount?_eq_some_iff.mp isRead
    have isVisible := NumberText.hasNoBlank_of_read? otherRead '\n' kept
    cases isVisible

theorem readRecord?_append_newline {line : List Char} {record : Record}
    (isRecord : readRecord? line = some record) (later : List Char) :
    readRecord? (line ++ '\n' :: later) = if IsAllBlank later then some record else none := by
  obtain ⟨starts, flags, count, lineEq, notName, notFlags, isCount⟩ :=
    readRecord?_eq_some_iff.mp isRecord
  have stillStarts : startsWithDigitAndSlash (line ++ '\n' :: later) = true := by
    obtain ⟨first, rest, rfl, ascii⟩ := startsWithDigitAndSlash_iff.mp starts
    exact startsWithDigitAndSlash_iff.mpr ⟨first, rest ++ '\n' :: later, rfl, ascii⟩
  have fields : line ++ '\n' :: later =
      record.name.toList ++ ' ' :: (flags ++ ' ' :: (count ++ '\n' :: later)) := by
    rw [lineEq, List.append_assoc, List.cons_append, List.append_assoc, List.cons_append]
  rw [readRecord?_of_fields stillStarts fields notName notFlags,
    readCount?_append_newline isCount later, String.ofList_toList]
  split <;> rfl

theorem isAllBlank_intercalate_iff {lines : List (List Char)} :
    IsAllBlank (['\n'].intercalate lines) ↔ ∀ line ∈ lines, IsAllBlank line := by
  induction lines with
  | nil => simp [Text.isAllBlank_nil]
  | cons line rest ih =>
      rw [List.forall_mem_cons, ← ih]
      cases rest with
      | nil => simp [Text.isAllBlank_nil]
      | cons next rest =>
          have newline : IsAllBlank ['\n'] := Text.isAllBlank_cons.mpr ⟨rfl, Text.isAllBlank_nil⟩
          rw [List.intercalate_cons_cons, Text.isAllBlank_append, Text.isAllBlank_append,
            and_iff_left newline]

theorem readRecord?_remainder {lines : List String} (areLines : ∀ line ∈ lines, '\n' ∉ line.toList)
    (many : pieceLimit < lines.length) {line : String} {record : Record}
    (isLast : lines[16]? = some line) (isRecord : parse line = [record]) :
    readRecord? (remainder lines).toList =
      if ∀ later ∈ lines.drop 17, IsAllBlank later.toList then some record else none := by
  have lineRead : readRecord? line.toList = some record := by
    rw [parse_of_line (areLines line (List.mem_of_getElem? isLast))] at isRecord
    exact Option.toList_eq_singleton_iff.mp isRecord
  obtain ⟨inside, lineEq⟩ := List.getElem?_eq_some_iff.mp isLast
  have fromLast : lines.drop 16 = line :: lines.drop 17 := by
    rw [List.drop_eq_getElem_cons inside, lineEq]
  obtain ⟨next, rest, laterLines⟩ := List.exists_cons_of_ne_nil
    (fun isEmpty => Nat.not_le.mpr many (List.drop_eq_nil_iff.mp isEmpty) : lines.drop 17 ≠ [])
  have remainderEq : (remainder lines).toList =
      line.toList ++ '\n' :: ['\n'].intercalate ((lines.drop 17).map String.toList) := by
    rw [remainder, String.toList_intercalate, fromLast, laterLines, List.map_cons, List.map_cons]
    change ['\n'].intercalate (line.toList :: next.toList :: rest.map String.toList) = _
    rw [List.intercalate_cons_cons, List.append_assoc, List.singleton_append]
  rw [remainderEq, readRecord?_append_newline lineRead]
  simp only [isAllBlank_intercalate_iff, List.forall_mem_map]

/-- The second byte of a text is a slash exactly if one byte stands before the slash. -/
theorem startsWithDigitAndSlash_toList_iff {text : String} :
    startsWithDigitAndSlash text.toList = true ↔ (Text.utf8 text)[1]? = some 0x2f := by
  have secondByte := @Text.getElem?_one_utf8_iff text '/' (by decide)
  rw [startsWithDigitAndSlash_iff]
  simp only [Nat.lt_succ_iff]
  exact secondByte.symm

inductive IsIgnored (line : String) : Prop
  | fewBlanks (few : line.toList.count ' ' < 2)
  | noSlash (otherByte : (Text.utf8 line)[1]? ≠ some 0x2f)
  | noCount (name flags count : String) (fields : line = name ++ " " ++ flags ++ " " ++ count)
      (notName : ' ' ∉ name.toList) (notFlags : ' ' ∉ flags.toList)
      (noValue : ∀ value, ¬ IsCount count.toList value)

theorem toList_fields (name flags count : String) :
    (name ++ " " ++ flags ++ " " ++ count).toList =
      name.toList ++ ' ' :: (flags.toList ++ ' ' :: count.toList) := by
  simp

theorem readRecord?_of_isIgnored {line : String} (ignored : IsIgnored line) :
    readRecord? line.toList = none := by
  by_cases starts : startsWithDigitAndSlash line.toList = true
  · cases ignored with
    | fewBlanks few =>
        rw [Option.eq_none_iff_forall_ne_some]
        intro record isRecord
        obtain ⟨-, flags, count, lineEq, -⟩ := readRecord?_eq_some_iff.mp isRecord
        rw [lineEq, List.count_append, List.count_cons_self, List.count_append,
          List.count_cons_self] at few
        omega
    | noSlash otherByte => exact absurd (startsWithDigitAndSlash_toList_iff.mp starts) otherByte
    | noCount name flags count fields notName notFlags noValue =>
        have noCount : readCount? count.toList = none :=
          Option.eq_none_iff_forall_ne_some.mpr fun value isCount =>
            noValue value (readCount?_eq_some_iff.mp isCount)
        rw [readRecord?_of_fields starts (fields ▸ toList_fields ..) notName notFlags, noCount,
          Option.map_none]
  · rw [readRecord?, if_neg starts]

/-- A text with two blanks has three fields. -/
theorem exists_fields {line : String} (enough : 2 ≤ line.toList.count ' ') :
    ∃ name flags count : String, line = name ++ " " ++ flags ++ " " ++ count ∧
      ' ' ∉ name.toList ∧ ' ' ∉ flags.toList := by
  obtain ⟨name, rest, lineEq, notName⟩ :=
    List.eq_append_cons_of_mem (List.count_pos_iff.mp (Nat.lt_of_lt_of_le Nat.zero_lt_two enough))
  have oneMore : 0 < rest.count ' ' := by
    rw [lineEq, List.count_append, List.count_eq_zero_of_not_mem notName,
      List.count_cons_self] at enough
    omega
  obtain ⟨flags, count, rfl, notFlags⟩ := List.eq_append_cons_of_mem (List.count_pos_iff.mp oneMore)
  refine ⟨String.ofList name, String.ofList flags, String.ofList count, ?_, ?_, ?_⟩
  · rw [← String.toList_inj, toList_fields, lineEq]
    simp only [String.toList_ofList]
  · rwa [String.toList_ofList]
  · rwa [String.toList_ofList]

theorem isIgnored_of_readRecord? {line : String} (noRecord : readRecord? line.toList = none) :
    IsIgnored line := by
  by_cases few : line.toList.count ' ' < 2
  · exact .fewBlanks few
  · by_cases secondByte : (Text.utf8 line)[1]? = some 0x2f
    · obtain ⟨name, flags, count, fields, notName, notFlags⟩ := exists_fields (Nat.not_lt.mp few)
      have starts := startsWithDigitAndSlash_toList_iff.mpr secondByte
      refine .noCount name flags count fields notName notFlags fun value isCount => ?_
      rw [readRecord?_of_fields starts (fields ▸ toList_fields ..) notName notFlags,
        readCount?_eq_some_iff.mpr isCount] at noRecord
      cases noRecord
    · exact .noSlash secondByte

theorem parse_eq_nil_iff {line : String} (isLine : '\n' ∉ line.toList) :
    parse line = [] ↔ IsIgnored line := by
  rw [parse_of_line isLine, Option.toList_eq_nil_iff]
  exact ⟨isIgnored_of_readRecord?, readRecord?_of_isIgnored⟩

theorem parse_of_fields {name flags count : String} {first : Char} {rest : List Char} {value : Float}
    (nameEq : name.toList = first :: '/' :: rest) (ascii : first.toNat < 0x80)
    (nameFree : ' ' ∉ name.toList ∧ '\n' ∉ name.toList)
    (flagsFree : ' ' ∉ flags.toList ∧ '\n' ∉ flags.toList) (countFree : '\n' ∉ count.toList)
    (isCount : IsCount count.toList value) :
    parse (name ++ " " ++ flags ++ " " ++ count) = [⟨name, value⟩] := by
  have fields := toList_fields name flags count
  have isLine : '\n' ∉ (name ++ " " ++ flags ++ " " ++ count).toList := by
    simp [fields, nameFree.2, flagsFree.2, countFree]
  have starts : startsWithDigitAndSlash (name ++ " " ++ flags ++ " " ++ count).toList = true := by
    rw [fields, nameEq]
    exact startsWithDigitAndSlash_iff.mpr ⟨first, _, rfl, ascii⟩
  rw [parse_of_line isLine, readRecord?_of_fields starts fields nameFree.1 flagsFree.1,
    readCount?_eq_some_iff.mpr isCount, Option.map_some, String.ofList_toList, Option.toList_some]

/-- Up to seventeen lines are read independently of each other.  Of more lines the first sixteen
are, and all others are one piece; if its first line is a record, that is what is read of it
where nothing but blanks follows, and otherwise nothing.  A line with a name, flags and a count
is a record of just these, and a line that is no record lacks a field, the slash or a count. -/
theorem lines_are_read_apart :
    (∀ lines : List String, (∀ line ∈ lines, '\n' ∉ line.toList) →
      (lines.length ≤ 17 → parse ("\n".intercalate lines) = lines.flatMap parse) ∧
      (17 < lines.length →
        parse ("\n".intercalate lines) =
            (lines.take 16).flatMap parse ++ (readRecord? (remainder lines).toList).toList ∧
          ∀ line record, lines[16]? = some line → parse line = [record] →
            readRecord? (remainder lines).toList =
              if ∀ later ∈ lines.drop 17, IsAllBlank later.toList then some record else none)) ∧
    (∀ (name flags count : String) (first : Char) (rest : List Char) (value : Float),
      name.toList = first :: '/' :: rest → first.toNat < 0x80 →
      (' ' ∉ name.toList ∧ '\n' ∉ name.toList) → (' ' ∉ flags.toList ∧ '\n' ∉ flags.toList) →
      '\n' ∉ count.toList → IsCount count.toList value →
        parse (name ++ " " ++ flags ++ " " ++ count) = [⟨name, value⟩]) ∧
    ∀ line : String, '\n' ∉ line.toList → (parse line = [] ↔ IsIgnored line) := by
  refine ⟨fun lines areLines => ⟨parse_of_few areLines, fun many => ⟨parse_of_many areLines many, ?_⟩⟩,
    ?_, fun line => parse_eq_nil_iff⟩
  · exact fun line record => readRecord?_remainder areLines many
  · intro name flags count first rest value nameEq ascii nameFree flagsFree countFree isCount
    exact parse_of_fields nameEq ascii nameFree flagsFree countFree isCount

/-- Behind the seventeenth line blanks do not matter, and anything else does. -/
theorem lines_are_read_apart_up_to_seventeenth :
    parse ("\n".intercalate (List.replicate 17 "a/ 0 5" ++ ["\t "])) =
        List.replicate 17 ⟨"a/", 5⟩ ∧
      parse ("\n".intercalate (List.replicate 17 "a/ 0 5" ++ ["b/ 0"])) =
        List.replicate 16 ⟨"a/", 5⟩ ∧
      parse "b/ 0" = [] := by
  obtain ⟨several, single, ignored⟩ := lines_are_read_apart
  have isCount : IsCount "5".toList 5 :=
    ⟨.decimal ⟨false, 5, 0⟩, by decide +kernel, by decide +kernel, by decide +kernel,
      by decide +kernel⟩
  have isRecord : parse "a/ 0 5" = [⟨"a/", 5⟩] :=
    single "a/" "0" "5" 'a' [] 5 (by decide) (by decide) (by decide) (by decide) (by decide) isCount
  have sixteen : (List.replicate 16 "a/ 0 5").flatMap parse = List.replicate 16 ⟨"a/", 5⟩ := by
    simp [List.replicate, isRecord]
  refine ⟨?_, ?_, (ignored "b/ 0" (by decide)).mpr (.fewBlanks (by decide))⟩
  · obtain ⟨parsed, last⟩ := (several (List.replicate 17 "a/ 0 5" ++ ["\t "]) (by decide)).2 (by decide)
    rw [parsed, last "a/ 0 5" _ rfl isRecord, if_pos (by decide)]
    exact congrArg (· ++ [_]) sixteen
  · obtain ⟨parsed, last⟩ := (several (List.replicate 17 "a/ 0 5" ++ ["b/ 0"]) (by decide)).2 (by decide)
    rw [parsed, last "a/ 0 5" _ rfl isRecord, if_neg (by decide)]
    exact congrArg (· ++ []) sixteen

end Listing

end CacheRouting
