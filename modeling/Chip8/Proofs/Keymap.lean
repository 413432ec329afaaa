import Chip8.Keymap
import Chip8.Proofs.Decimal
import Mathlib.Data.List.Induction
import Mathlib.Data.List.Nodup

/-!
# Keymaps of sixteen integers

Which texts are read as keymaps: those of sixteen fields that are all read as integers, no two of
them as the same one.  Any other text fails for the number of its fields, or else for the first
field that is no integer or repeats an earlier one.  Nothing of this depends on how an integer is
read from a field, and integers that are written out in base ten make the keymap that they list.
-/

namespace Chip8

namespace Text

theorem commaFields_intercalate {fields : List String} (hne : fields ≠ [])
    (h : ∀ field ∈ fields, ',' ∉ field.toList) : commaFields (",".intercalate fields) = fields := by
  unfold commaFields
  induction fields with
  | nil => exact absurd rfl hne
  | cons field rest ih =>
    obtain ⟨hfield, hrest⟩ := List.forall_mem_cons.1 h
    cases rest with
    | nil =>
      rw [String.intercalate_singleton, fields_of_not_mem hfield, List.map_singleton,
        String.ofList_toList]
    | cons next rest =>
      have hjoined : (",".intercalate (field :: next :: rest)).toList =
          field.toList ++ ',' :: (",".intercalate (next :: rest)).toList := by
        rw [String.intercalate_cons_cons, String.toList_append, String.toList_append,
          List.append_assoc]
        rfl
      rw [hjoined, fields_append_comma hfield, List.map_cons, String.ofList_toList,
        ih (List.cons_ne_nil _ _) hrest]

end Text

namespace Keymap

open Text

variable {read : String → Option Int} {fields earlier : List String} {codes : List Int}
  {field text : String} {e : Error} {m : Keymap}

/-- Whether all fields are integers, and no two of them the same one. -/
def Distinct (read : String → Option Int) (fields : List String) : Prop :=
  (∀ field ∈ fields, (read field).isSome = true) ∧ (fields.map read).Nodup

/-- What is wrong with a field that comes after others: it is no integer, or it repeats one. -/
def Faulty (read : String → Option Int) (earlier : List String) (field : String) : Error → Prop
  | .notInteger => read field = none
  | .duplicate => (read field).isSome = true ∧ read field ∈ earlier.map read
  | _ => False

def FirstFault (read : String → Option Int) (fields : List String) (e : Error) : Prop :=
  ∃ earlier field later, fields = earlier ++ field :: later ∧ Distinct read earlier ∧
    Faulty read earlier field e

/-! ## Distinct fields -/

theorem distinct_of_map_eq (hmap : fields.map read = codes.map some) (hnodup : codes.Nodup) :
    Distinct read fields := by
  constructor
  · intro field hfield
    have hmem := List.mem_map_of_mem (f := read) hfield
    rw [hmap] at hmem
    obtain ⟨code, -, hcode⟩ := List.mem_map.1 hmem
    rw [← hcode]
    rfl
  · rw [hmap]
    exact hnodup.map (Option.some_injective Int)

theorem exists_codes_of_distinct (h : Distinct read fields) :
    ∃ codes : List Int, fields.map read = codes.map some ∧ codes.Nodup := by
  have hmap : fields.map read = (fields.map fun field => (read field).getD 0).map some := by
    rw [List.map_map]
    apply List.map_congr_left
    intro field hfield
    obtain ⟨code, hcode⟩ := Option.isSome_iff_exists.1 (h.1 field hfield)
    rw [Function.comp_apply, hcode]
    rfl
  refine ⟨_, hmap, ?_⟩
  have hnodup := h.2
  rw [hmap] at hnodup
  exact hnodup.of_map some

theorem Distinct.concat (h : Distinct read fields) (hread : (read field).isSome = true)
    (hnew : read field ∉ fields.map read) : Distinct read (fields ++ [field]) := by
  constructor
  · exact List.forall_mem_append.2 ⟨h.1, List.forall_mem_singleton.2 hread⟩
  · rw [List.map_append, List.map_singleton]
    exact List.nodup_append_comm.1 (List.nodup_cons.2 ⟨hnew, h.2⟩)

theorem FirstFault.concat (h : FirstFault read fields e) (field : String) :
    FirstFault read (fields ++ [field]) e := by
  obtain ⟨earlier, faulty, later, rfl, hdistinct, hfaulty⟩ := h
  exact ⟨earlier, faulty, later ++ [field], by simp, hdistinct, hfaulty⟩

/-- Either nothing is wrong with any field, or there is a first one that something is wrong with. -/
theorem distinct_or_firstFault (read : String → Option Int) (fields : List String) :
    Distinct read fields ∨ ∃ e, FirstFault read fields e := by
  induction fields using List.reverseRecOn with
  | nil => exact Or.inl ⟨fun field hfield => absurd hfield List.not_mem_nil, List.nodup_nil⟩
  | append_singleton fields field ih =>
    rcases ih with hdistinct | ⟨e, hfault⟩
    · cases hread : read field with
      | none => exact Or.inr ⟨.notInteger, fields, field, [], rfl, hdistinct, hread⟩
      | some code =>
        have hsome : (read field).isSome = true := by rw [hread]; rfl
        by_cases hmem : read field ∈ fields.map read
        · exact Or.inr ⟨.duplicate, fields, field, [], rfl, hdistinct, hsome, hmem⟩
        · exact Or.inl (hdistinct.concat hsome hmem)
    · exact Or.inr ⟨e, hfault.concat field⟩

/-! ## Reading field by field -/

/-- Fields in which nothing is wrong are read, and what comes after them has to differ from them. -/
theorem codesOf_append {before : List Int} (hmap : fields.map read = codes.map some)
    (hnodup : codes.Nodup) (hnew : ∀ code ∈ codes, code ∉ before) (rest : List String) :
    codesOf read before (fields ++ rest) =
      (codesOf read (codes.reverse ++ before) rest).map (codes ++ ·) := by
  induction fields generalizing before codes with
  | nil =>
    obtain rfl := List.map_eq_nil_iff.1 hmap.symm
    rw [List.nil_append, List.reverse_nil, List.nil_append]
    cases codesOf read before rest <;> rfl
  | cons field fields ih =>
    cases codes with
    | nil => cases hmap
    | cons code codes =>
      obtain ⟨hread, hmap⟩ := List.cons.inj hmap
      obtain ⟨hnotIn, hnodup⟩ := List.nodup_cons.1 hnodup
      obtain ⟨hcode, hnew⟩ := List.forall_mem_cons.1 hnew
      have hlater : ∀ other ∈ codes, other ∉ code :: before := by
        intro other hother hmem
        rcases List.mem_cons.1 hmem with rfl | hbefore
        · exact hnotIn hother
        · exact hnew other hother hbefore
      rw [List.cons_append, codesOf, hread]
      dsimp only
      rw [if_neg hcode, ih hmap hnodup hlater, List.reverse_cons, List.append_assoc,
        List.singleton_append]
      cases codesOf read (codes.reverse ++ code :: before) rest <;> rfl

theorem codesOf_of_distinct (hmap : fields.map read = codes.map some) (hnodup : codes.Nodup) :
    codesOf read [] fields = .ok codes := by
  have happend := codesOf_append hmap hnodup (fun code _ => List.not_mem_nil) []
  rw [List.append_nil] at happend
  rw [happend]
  exact congrArg Except.ok (List.append_nil codes)

theorem codesOf_of_firstFault (h : FirstFault read fields e) :
    codesOf read [] fields = .error e := by
  obtain ⟨earlier, field, later, rfl, hdistinct, hfaulty⟩ := h
  obtain ⟨codes, hmap, hnodup⟩ := exists_codes_of_distinct hdistinct
  have hfield : codesOf read (codes.reverse ++ []) (field :: later) = .error e := by
    unfold codesOf
    cases e with
    | notInteger =>
      have hread : read field = none := hfaulty
      rw [hread]
    | duplicate =>
      obtain ⟨hsome, hmem⟩ := hfaulty
      obtain ⟨code, hread⟩ := Option.isSome_iff_exists.1 hsome
      rw [hread, hmap, List.mem_map_of_injective (Option.some_injective Int)] at hmem
      have hcode : code ∈ codes.reverse ++ [] := by simpa using hmem
      rw [hread]
      exact if_pos hcode
    | wrongCount => exact hfaulty.elim
    | notText => exact hfaulty.elim
  rw [codesOf_append hmap hnodup (fun code _ => List.not_mem_nil), hfield]
  rfl

theorem codesOf_eq_ok_iff :
    codesOf read [] fields = .ok codes ↔ fields.map read = codes.map some ∧ codes.Nodup := by
  constructor
  · intro hcodes
    rcases distinct_or_firstFault read fields with hdistinct | ⟨e, hfault⟩
    · obtain ⟨others, hmap, hnodup⟩ := exists_codes_of_distinct hdistinct
      rw [codesOf_of_distinct hmap hnodup] at hcodes
      cases hcodes
      exact ⟨hmap, hnodup⟩
    · rw [codesOf_of_firstFault hfault] at hcodes
      cases hcodes
  · rintro ⟨hmap, hnodup⟩
    exact codesOf_of_distinct hmap hnodup

theorem codesOf_eq_error_iff : codesOf read [] fields = .error e ↔ FirstFault read fields e := by
  constructor
  · intro herror
    rcases distinct_or_firstFault read fields with hdistinct | ⟨e', hfault⟩
    · obtain ⟨codes, hmap, hnodup⟩ := exists_codes_of_distinct hdistinct
      rw [codesOf_of_distinct hmap hnodup] at herror
      cases herror
    · rw [codesOf_of_firstFault hfault] at herror
      cases herror
      exact hfault
  · exact codesOf_of_firstFault

/-! ## Reading texts -/

/-- Sixteen fields are read as far as nothing is wrong with them; other numbers of fields are not
looked at. -/
theorem parseWith_cases (read : String → Option Int) (text : String) :
    (commaFields text).length ≠ 16 ∧ parseWith read text = .error .wrongCount ∨
      (commaFields text).length = 16 ∧
        ((∃ e, codesOf read [] (commaFields text) = .error e ∧ parseWith read text = .error e) ∨
          ∃ m : Keymap, codesOf read [] (commaFields text) = .ok m.codes.toList ∧
            parseWith read text = .ok m) := by
  unfold parseWith
  dsimp only
  by_cases hlength : (commaFields text).length = 16
  · rw [if_pos hlength]
    refine Or.inr ⟨hlength, ?_⟩
    cases hcodes : codesOf read [] (commaFields text) with
    | error e => exact Or.inl ⟨e, rfl, rfl⟩
    | ok codes =>
      have hsize : codes.toArray.size = 16 := by
        rw [List.size_toArray, length_codesOf hcodes, hlength]
      exact Or.inr ⟨⟨⟨codes.toArray, hsize⟩⟩, rfl, dif_pos hsize⟩
  · rw [if_neg hlength]
    exact Or.inl ⟨hlength, rfl⟩

theorem parseWith_eq_ok_iff :
    parseWith read text = .ok m ↔
      (commaFields text).map read = m.codes.toList.map some ∧ m.codes.toList.Nodup := by
  rw [← codesOf_eq_ok_iff]
  rcases parseWith_cases read text with
    ⟨hlength, hparse⟩ | ⟨-, ⟨e, hcodes, hparse⟩ | ⟨n, hcodes, hparse⟩⟩
  · rw [hparse]
    refine iff_of_false nofun fun hcodes => hlength ?_
    rw [← length_codesOf hcodes, Vector.length_toList]
  · rw [hparse, hcodes]
    exact iff_of_false nofun nofun
  · rw [hparse, hcodes, Except.ok.injEq, Except.ok.injEq]
    constructor
    · rintro rfl
      rfl
    · exact fun hsame => congrArg Keymap.mk (Vector.toList_inj.1 hsame)

theorem exists_parseWith_iff :
    (∃ m, parseWith read text = .ok m) ↔
      (commaFields text).length = 16 ∧ Distinct read (commaFields text) := by
  constructor
  · rintro ⟨m, hm⟩
    obtain ⟨hmap, hnodup⟩ := parseWith_eq_ok_iff.1 hm
    have hlength := congrArg List.length hmap
    rw [List.length_map, List.length_map, Vector.length_toList] at hlength
    exact ⟨hlength, distinct_of_map_eq hmap hnodup⟩
  · rintro ⟨hlength, hdistinct⟩
    obtain ⟨codes, hmap, hnodup⟩ := exists_codes_of_distinct hdistinct
    have hsize := congrArg List.length hmap
    rw [List.length_map, List.length_map, hlength] at hsize
    exact ⟨⟨⟨codes.toArray, hsize.symm⟩⟩, parseWith_eq_ok_iff.2 ⟨hmap, hnodup⟩⟩

theorem parseWith_eq_error_iff :
    parseWith read text = .error e ↔
      (commaFields text).length ≠ 16 ∧ e = .wrongCount ∨
        (commaFields text).length = 16 ∧ FirstFault read (commaFields text) e := by
  rw [← codesOf_eq_error_iff]
  rcases parseWith_cases read text with
    ⟨hlength, hparse⟩ | ⟨hlength, ⟨e', hcodes, hparse⟩ | ⟨m, hcodes, hparse⟩⟩
  · simp [hparse, hlength, eq_comm]
  · simp [hparse, hlength, hcodes]
  · simp [hparse, hlength, hcodes]

/-- No host code is mapped to two keys of the keypad. -/
theorem nodup_of_parse (h : parse text = .ok m) : m.codes.toList.Nodup :=
  (parseWith_eq_ok_iff.1 h).2

/-! ## Host codes and keys -/

theorem key?_eq_some_iff (h : m.codes.toList.Nodup) {code : Int} {key : Nibble} :
    m.key? code = some key ↔ m.codes.get key = code := by
  obtain ⟨⟨codes, hsize⟩⟩ := m
  have hnodup : codes.toList.Nodup := h
  simp only [Keymap.key?, Vector.finIdxOf?_mk, Option.map_eq_some_iff, Array.finIdxOf?_eq_some_iff]
  constructor
  · rintro ⟨place, ⟨hplace, -⟩, rfl⟩
    exact hplace
  · intro hkey
    refine ⟨Fin.cast hsize.symm key, ⟨hkey, ?_⟩, rfl⟩
    intro other hother hsame
    have hlt : (key : Nat) < codes.size := Nat.lt_of_lt_of_eq key.isLt hsize.symm
    have heq : codes.toList[(other : Nat)] = codes.toList[(key : Nat)] := hsame.trans hkey.symm
    have hplace : (other : Nat) = key := (hnodup.getElem_inj_iff).1 heq
    exact absurd hplace (Nat.ne_of_lt hother)

theorem mem_toList_iff {code : Int} {key : Nibble} :
    (code, (key : Nat)) ∈ m.toList ↔ m.codes.get key = code := by
  have hkey : m.codes.toList[(key : Nat)]? = some (m.codes.get key) := by
    have hlt : (key : Nat) < m.codes.toList.length := by
      rw [Vector.length_toList]
      exact key.isLt
    exact List.getElem?_eq_getElem hlt
  unfold toList
  rw [List.mem_zipIdx_iff_getElem?, hkey, Option.some_inj]

/-! ## Integers that are written out -/

def written (codes : Vector Int 16) : String := ",".intercalate (codes.toList.map toString)

theorem commaFields_written (codes : Vector Int 16) :
    commaFields (written codes) = codes.toList.map toString := by
  apply commaFields_intercalate
  · intro hnil
    have hlength := congrArg List.length hnil
    rw [List.length_map, Vector.length_toList] at hlength
    cases hlength
  · intro field hfield
    obtain ⟨code, -, rfl⟩ := List.mem_map.1 hfield
    exact comma_not_mem_toString code

theorem parseWith_written_iff {codes : Vector Int 16} :
    parseWith read (written codes) = .ok ⟨codes⟩ ↔
      (∀ code ∈ codes.toList, read (toString code) = some code) ∧ codes.toList.Nodup := by
  rw [parseWith_eq_ok_iff, commaFields_written, List.map_map, List.map_inj_left]
  rfl

theorem integer?_toString_eq_self_iff (n : Int) :
    integer? (toString n) = some n ↔ n.natAbs < 10 ^ mostDecimalDigits := by
  rw [integer?_toString]
  split
  · exact iff_of_true rfl ‹_›
  · exact iff_of_false nofun ‹_›

theorem message_injective : Function.Injective Error.message := by
  intro e e' h
  cases e <;> cases e' <;> simp [Error.message] at h ⊢

/-- Whatever reads the integers, a text is read as a keymap exactly if it has sixteen fields with
different integers; these are then the codes of the keys, in their order, and no others are found.
Any other text fails for the number of its fields, or else for the first field that is no integer or
repeats the integer of an earlier one, and the message tells which.  So sixteen different integers
that are written out are read as the keymap that they list, as far as each of them alone is read as
itself; and that is so as long as it has no more digits than are read. -/
theorem sixteen_integers_make_keymap :
    (∀ (read : String → Option Int) (text : String),
      ((∃ m, parseWith read text = .ok m) ↔
        (commaFields text).length = 16 ∧ Distinct read (commaFields text)) ∧
      (∀ m, parseWith read text = .ok m →
        (m.toList.map Prod.fst).map some = (commaFields text).map read ∧
        m.toList.map Prod.snd = List.range 16 ∧ (m.toList.map Prod.fst).Nodup ∧
        ∀ code (key : Nibble), m.key? code = some key ↔ (code, (key : Nat)) ∈ m.toList) ∧
      ∀ e, parseWith read text = .error e ↔
        (commaFields text).length ≠ 16 ∧ e = .wrongCount ∨
          (commaFields text).length = 16 ∧ FirstFault read (commaFields text) e) ∧
    Function.Injective Error.message ∧
    (∀ (read : String → Option Int) (codes : Vector Int 16),
      parseWith read (written codes) = .ok ⟨codes⟩ ↔
        (∀ code ∈ codes.toList, read (toString code) = some code) ∧ codes.toList.Nodup) ∧
    ∀ codes : Vector Int 16,
      parse (written codes) = .ok ⟨codes⟩ ↔
        (∀ code ∈ codes.toList, code.natAbs < 10 ^ mostDecimalDigits) ∧ codes.toList.Nodup := by
  refine ⟨?_, message_injective, ?_, ?_⟩
  · intro read text
    refine ⟨exists_parseWith_iff, ?_, fun e => parseWith_eq_error_iff⟩
    intro m hm
    obtain ⟨hmap, hnodup⟩ := parseWith_eq_ok_iff.1 hm
    have hcodes : m.toList.map Prod.fst = m.codes.toList := List.zipIdx_map_fst 0 _
    have hkeys : m.toList.map Prod.snd = List.range 16 := by
      unfold toList
      rw [List.zipIdx_map_snd, Vector.length_toList, List.range_eq_range']
    rw [hcodes]
    refine ⟨hmap.symm, hkeys, hnodup, ?_⟩
    intro code key
    rw [key?_eq_some_iff hnodup, mem_toList_iff]
  · intro read codes
    exact parseWith_written_iff
  · intro codes
    simp only [← integer?_toString_eq_self_iff]
    exact parseWith_written_iff

/-- The keys of a keyboard's left block, and sixteen fields of which two spell the same integer. -/
theorem keymap_of_left_block :
    parse standardText =
        .ok ⟨#v[120, 49, 50, 51, 113, 119, 101, 97, 115, 100, 122, 99, 52, 114, 102, 118]⟩ ∧
      parse "7, 07,2,3,4,5,6,0,8,9,10,11,12,13,14,15" = .error .duplicate := by
  obtain ⟨hread, -, -, hwritten⟩ := sixteen_integers_make_keymap
  constructor
  · have htext : written #v[120, 49, 50, 51, 113, 119, 101, 97, 115, 100, 122, 99, 52, 114, 102,
        118] = standardText := by decide +kernel
    rw [← htext]
    refine (hwritten _).2 ⟨fun code hcode => ?_, by decide⟩
    have hsmall : code.natAbs < 10 ^ 3 := by
      revert code
      decide
    exact hsmall.trans_le (Nat.pow_le_pow_right (by decide) (by decide))
  · obtain ⟨-, -, herror⟩ := hread integer? "7, 07,2,3,4,5,6,0,8,9,10,11,12,13,14,15"
    have hfields : commaFields "7, 07,2,3,4,5,6,0,8,9,10,11,12,13,14,15" =
        ["7"] ++ " 07" :: ["2", "3", "4", "5", "6", "0", "8", "9", "10", "11", "12", "13", "14",
          "15"] := by decide +kernel
    refine (herror .duplicate).2 (Or.inr ⟨?_, ["7"], " 07", _, hfields, ?_, ?_⟩)
    · rw [hfields]
      rfl
    · exact ⟨by decide +kernel, List.nodup_singleton _⟩
    · exact ⟨by decide +kernel, by decide +kernel⟩

/-- Sixteen different integers, the first of which has one digit more than are read. -/
def longFirst : Vector Int 16 :=
  #v[10 ^ mostDecimalDigits, 1, 2, 3, 4, 5, 6, 7, 8, 9, 10, 11, 12, 13, 14, 15]

/-- An integer with too many digits is not read, different as it may be from the others. -/
theorem long_integer_is_refused :
    longFirst.toList.Nodup ∧ parse (written longFirst) = .error .notInteger := by
  have hlong : (10 : Int) ^ mostDecimalDigits = (10 ^ mostDecimalDigits : Nat) := by
    rw [Nat.cast_pow]
    rfl
  have hbig : 10 ^ 2 ≤ 10 ^ mostDecimalDigits := Nat.pow_le_pow_right (by decide) (by decide)
  have hread : integer? (toString ((10 : Int) ^ mostDecimalDigits)) = none := by
    rw [hlong, integer?_toString, Int.natAbs_natCast, if_neg (Nat.lt_irrefl _)]
  constructor
  · refine List.nodup_cons.2 ⟨fun hmem => ?_, by decide⟩
    have hsmall : ∀ code ∈ ([1, 2, 3, 4, 5, 6, 7, 8, 9, 10, 11, 12, 13, 14, 15] : List Int),
        code < 100 := by decide
    have hlt := hsmall _ hmem
    rw [hlong] at hlt
    omega
  · refine parseWith_eq_error_iff.2 (Or.inr ⟨?_, ?_⟩)
    · rw [commaFields_written, List.length_map, Vector.length_toList]
    · rw [commaFields_written]
      refine ⟨[], toString ((10 : Int) ^ mostDecimalDigits), _, rfl, ?_, hread⟩
      exact ⟨fun field hfield => absurd hfield List.not_mem_nil, List.nodup_nil⟩

end Keymap

end Chip8
