import Mathlib.Data.Int.CharZero
import Mathlib.Data.List.Nodup
import TagTemplate.Proofs.Toml.Completeness
import TagTemplate.Proofs.Toml.Layout
import TagTemplate.Settings

/-!
Settings survive writing and reading, whatever the text of their mime type.

This is so for each library that keeps the laws of the format (`reads_back_as_written`): the layout
of a table spells the table, and what is spelled is read.  The plain library keeps these laws.
-/

namespace TagTemplate.Settings

/-! ## Tables of settings -/

theorem hasBareKeys_table (settings : Settings) : settings.table.HasBareKeys := by
  have hkeys : ∀ key ∈ [limitKey, functionsKey, mimeTypeKey],
      key.toList ≠ [] ∧ key.toList.all Toml.isBareKeyChar = true := by
    decide +kernel
  intro entry hentry
  exact hkeys entry.key (List.mem_map_of_mem hentry)

/-- Only the iteration limit can be too large. -/
theorem inRange_table_iff (settings : Settings) :
    settings.table.InRange ↔ settings.maxLoopIterations.toNat < Toml.integerBound := by
  simp [Toml.Table.InRange, table, fields, Toml.Scalar.InRange]

theorem key_mem_of_mem_fields {base : Settings} {field : Toml.Entry} (h : field ∈ base.fields)
    (settings : Settings) : field.key ∈ settings.fields.map Toml.Entry.key :=
  (List.mem_map_of_mem h : field.key ∈ base.fields.map Toml.Entry.key)

/-- The fields give all that is known of the settings, so nothing of the base is left. -/
theorem givenBy_fields (settings base : Settings) : settings.GivenBy base settings.fields where
  given _ hentry := hentry
  others _ hfield habsent := absurd (key_mem_of_mem_fields hfield settings) habsent

theorem eq_of_fields_subset {base settings : Settings}
    (h : ∀ field ∈ base.fields, field ∈ settings.fields) : base = settings := by
  obtain ⟨limit, functions, mimeType⟩ := base
  obtain ⟨limit', functions', mimeType'⟩ := settings
  simpa [fields, limitKey, functionsKey, mimeTypeKey, UInt64.toNat_inj] using h

/-! ## Taking entries one after the other -/

theorem limit?_eq_some_iff {n : Int} {limit : UInt64} :
    limit? n = some limit ↔ n = limit.toNat := by
  unfold limit?
  split
  · next hrange =>
      obtain ⟨hlow, hhigh⟩ := hrange
      have hlt : n.toNat < UInt64.size := by omega
      rw [Option.some.injEq, ← UInt64.toNat_inj, UInt64.toNat_ofNat_of_lt' hlt]
      omega
  · have := limit.toNat_lt_size
    simp
    omega

theorem givenBy_iff {settings base : Settings} {entries : List Toml.Entry} :
    settings.GivenBy base entries ↔ (∀ entry ∈ entries, entry ∈ settings.fields) ∧
      ∀ field ∈ base.fields, field.key ∉ entries.map Toml.Entry.key → field ∈ settings.fields :=
  ⟨fun h => ⟨h.given, h.others⟩, fun h => ⟨h.1, h.2⟩⟩

/-- An entry that is taken sets its field and leaves the others. -/
theorem set?_eq_some_iff {base settings : Settings} {entry : Toml.Entry} :
    set? base entry = some settings ↔ settings.GivenBy base [entry] := by
  obtain ⟨key, value⟩ := entry
  obtain ⟨limit, functions, mimeType⟩ := base
  obtain ⟨limit', functions', mimeType'⟩ := settings
  rw [givenBy_iff]
  cases value with
  | string content =>
      by_cases hkey : key = mimeTypeKey
      · simp [set?, fields, hkey, limitKey, functionsKey, mimeTypeKey, UInt64.toNat_inj,
          and_assoc, and_comm, and_left_comm]
      · simp [set?, fields, hkey]
  | integer n =>
      by_cases hkey : key = limitKey
      · simp [set?, fields, hkey, limitKey, functionsKey, mimeTypeKey, limit?_eq_some_iff]
      · simp [set?, fields, hkey]
  | boolean flag =>
      by_cases hkey : key = functionsKey
      · simp [set?, fields, hkey, limitKey, functionsKey, mimeTypeKey, UInt64.toNat_inj,
          and_assoc, and_comm]
      · simp [set?, fields, hkey]

theorem exists_set?_of_mem_fields {settings : Settings} {entry : Toml.Entry}
    (h : entry ∈ settings.fields) (base : Settings) : ∃ mid, set? base entry = some mid := by
  simp only [fields, List.mem_cons, List.not_mem_nil, or_false] at h
  rcases h with rfl | rfl | rfl
  · exact ⟨{ base with maxLoopIterations := settings.maxLoopIterations }, by
      simp [set?, limit?_eq_some_iff.mpr rfl]⟩
  · exact ⟨{ base with standardFunctions := settings.standardFunctions }, by simp [set?]⟩
  · exact ⟨{ base with defaultMimeType := settings.defaultMimeType }, by simp [set?]⟩

theorem eq_of_key_eq {settings : Settings} {field field' : Toml.Entry}
    (h : field ∈ settings.fields) (h' : field' ∈ settings.fields) (hkey : field.key = field'.key) :
    field = field' :=
  List.inj_on_of_nodup_map settings.nodup_fields h h' hkey

/-- One entry first, then the others, which have other keys. -/
theorem givenBy_cons_iff {settings base mid : Settings} {entry : Toml.Entry}
    {entries : List Toml.Entry} (hmid : mid.GivenBy base [entry])
    (habsent : entry.key ∉ entries.map Toml.Entry.key) :
    settings.GivenBy mid entries ↔ settings.GivenBy base (entry :: entries) := by
  have hentry : entry ∈ mid.fields := hmid.given entry (by simp)
  constructor
  · intro h
    refine ⟨?_, fun field hfield hkey => ?_⟩
    · simpa using ⟨h.others entry hentry habsent, h.given⟩
    · simp only [List.map_cons, List.mem_cons, not_or] at hkey
      exact h.others field (hmid.others field hfield (by simpa using hkey.1)) hkey.2
  · intro h
    refine ⟨fun other hother => h.given other (by simp [hother]), fun field hfield hkey => ?_⟩
    by_cases hsame : field.key = entry.key
    · rw [eq_of_key_eq hfield hentry hsame]
      exact h.given entry (by simp)
    · -- the field of that name was not taken from the entry, so it is the base's
      obtain ⟨old, hold, hname⟩ := List.mem_map.mp (key_mem_of_mem_fields hfield base)
      have hkept := hmid.others old hold (by simpa [hname] using hsame)
      rw [eq_of_key_eq hfield hkept hname.symm]
      exact h.others old hold (by simpa [hname, hsame] using hkey)

theorem foldlM_set?_eq_some_iff {entries : List Toml.Entry} {base settings : Settings}
    (hnodup : (entries.map Toml.Entry.key).Nodup) :
    entries.foldlM set? base = some settings ↔ settings.GivenBy base entries := by
  induction entries generalizing base with
  | nil =>
      constructor
      · rintro ⟨⟩
        exact ⟨by simp, fun _ hfield _ => hfield⟩
      · intro h
        have hbase := eq_of_fields_subset fun field hfield => h.others field hfield (by simp)
        simp [hbase]
  | cons entry entries ih =>
      obtain ⟨habsent, hrest⟩ := List.nodup_cons.mp hnodup
      rw [List.foldlM_cons, Option.bind_eq_bind, Option.bind_eq_some_iff]
      constructor
      · rintro ⟨mid, hset, hfold⟩
        exact (givenBy_cons_iff (set?_eq_some_iff.mp hset) habsent).mp ((ih hrest).mp hfold)
      · intro h
        obtain ⟨mid, hset⟩ := exists_set?_of_mem_fields (h.given entry (by simp)) base
        have hmid := set?_eq_some_iff.mp hset
        exact ⟨mid, hset, (ih hrest).mpr ((givenBy_cons_iff hmid habsent).mpr h)⟩

namespace Library

variable {library : Library}

theorem write?_of_lt (hwrite : library.WritesToml) (hfields : library.CarriesFields)
    {settings : Settings} (hlimit : settings.maxLoopIterations.toNat < Toml.integerBound) :
    library.write? settings = some settings.table.layout := by
  rw [write?, hfields.toTable_eq]
  exact hwrite.layout _ settings.hasBareKeys_table (settings.inRange_table_iff.mpr hlimit)

theorem write?_of_le (hwrite : library.WritesToml) (hfields : library.CarriesFields)
    {settings : Settings} (hlimit : Toml.integerBound ≤ settings.maxLoopIterations.toNat) :
    library.write? settings = none := by
  rw [write?, hfields.toTable_eq]
  refine hwrite.refused _ settings.hasBareKeys_table ?_
  rw [inRange_table_iff]
  omega

/-- A text that spells a table is read as the settings that the table gives. -/
theorem read?_eq_some_iff (hread : library.ReadsToml) (hfields : library.CarriesFields)
    {settings : Settings} {text : String} {table : Toml.Table} (h : table.SpelledBy text) :
    library.read? text = some settings ↔ settings.GivenBy Settings.default table.entries := by
  rw [read?, hread text table h, Option.bind_some, hfields.ofTable?_eq_some_iff]

/-! ## The plain library -/

theorem readsToml_plain : plain.ReadsToml := fun _ _ h => Toml.readTable?_of_spelledBy h

theorem writesToml_plain : plain.WritesToml where
  layout _ _ hrange := if_pos hrange
  refused _ _ hrange := if_neg hrange

theorem carriesFields_plain : plain.CarriesFields where
  toTable_eq _ := rfl
  ofTable?_eq_some_iff table _ := foldlM_set?_eq_some_iff table.nodup

end Library

/--
Settings can be written unless their iteration limit is too large, and the text reads back as the
settings.
-/
theorem reads_back_as_written {library : Library} (hread : library.ReadsToml)
    (hwrite : library.WritesToml) (hfields : library.CarriesFields) (settings : Settings) :
    (library.write? settings = none ↔
      Int64.maxValue.toInt < settings.maxLoopIterations.toNat) ∧
    ∀ text, library.write? settings = some text → library.read? text = some settings := by
  have hbound : (Toml.integerBound : Int) = Int64.maxValue.toInt + 1 := by decide +kernel
  by_cases hlimit : settings.maxLoopIterations.toNat < Toml.integerBound
  · have hspelled := Toml.Table.spelledBy_layout settings.hasBareKeys_table
      (settings.inRange_table_iff.mpr hlimit)
    rw [Library.write?_of_lt hwrite hfields hlimit]
    constructor
    · simp
      omega
    · rintro _ ⟨⟩
      exact (Library.read?_eq_some_iff hread hfields hspelled).mpr (settings.givenBy_fields _)
  · rw [Library.write?_of_le hwrite hfields (by omega)]
    simp
    omega

/-- Quotes of both kinds in runs, a line break, a backslash and controls. -/
def quoted : Settings := ⟨9223372036854775807, false, "\n\"\"\"\"\\'''\r\t\x00\x7f\""⟩

def quotedText : String :=
  "max_loop_iterations = 9223372036854775807\nstandard_functions = false\n" ++
    "default_mime_type = \"\"\"\n\n\"\"\\\"\"\\\\'''\\r\\t\\u0000\\u007F\"\"\"\"\n"

theorem reads_back_as_written_quoted :
    Library.plain.ReadsToml ∧ Library.plain.WritesToml ∧ Library.plain.CarriesFields ∧
      Library.plain.write? quoted = some quotedText ∧
      Library.plain.read? quotedText = some quoted ∧
      Library.plain.write? { quoted with maxLoopIterations := 9223372036854775808 } = none := by
  have hlaws := @reads_back_as_written Library.plain Library.readsToml_plain
    Library.writesToml_plain Library.carriesFields_plain
  have hwritten : Library.plain.write? quoted = some quotedText := by decide +kernel
  exact ⟨Library.readsToml_plain, Library.writesToml_plain, Library.carriesFields_plain, hwritten,
    (hlaws quoted).2 quotedText hwritten, (hlaws _).1.mpr (by decide +kernel)⟩

end TagTemplate.Settings
