import FrontToc.Config
import FrontToc.Proofs.TomlLines

/-!
# The configuration that a written configuration gives

A configuration is written with all its fields, in two tables. The text is read as these tables, whatever
root and extension are, and they give the configuration again, with no field left to its default.
-/
namespace FrontToc.Config

open Text Toml

/-- A field that is written with quotes. -/
def stringField (name : String) (bare : IsBareKey name.toList) (s : List Char) : WrittenEntry where
  key := name.toList
  text := stringText s
  value := .str s
  bare := bare
  reads := .stringText s

theorem isWholeNumber_depth (depth : UInt8) : isWholeNumber depth.toNat = true := by
  have small := depth.toNat_lt
  unfold isWholeNumber
  simp
  omega

/-- A field that is written as a number. -/
def depthField (name : String) (bare : IsBareKey name.toList) (depth : UInt8) : WrittenEntry where
  key := name.toList
  text := decimal depth.toNat
  value := .int depth.toNat
  bare := bare
  reads := .decimal (isWholeNumber_depth depth)

/-- The table with the options for headings as it is written. -/
def headingsTable (o : HeadingOptions) : WrittenTable where
  key := "headings".toList
  entries := [depthField "min_depth" (by decide) o.minDepth,
    depthField "max_depth" (by decide) o.maxDepth,
    stringField "duplicate_slugs" (by decide) (duplicatesName o.duplicateSlugs)]
  bare := by decide
  distinct := by
    change ["min_depth".toList, "max_depth".toList, "duplicate_slugs".toList].Nodup
    decide

/-- The table about the walk as it is written. -/
def walkTable (c : Config) : WrittenTable where
  key := "walk".toList
  entries := [stringField "root" (by decide) c.root, stringField "extension" (by decide) c.extension]
  bare := by decide
  distinct := by
    change ["root".toList, "extension".toList].Nodup
    decide

theorem toToml_eq_tables (c : Config) :
    c.toToml = (headingsTable c.headings).text ++ [walkTable c].flatMap fun t => '\n' :: t.text := by
  have first_header : "[headings]\n".toList = '[' :: ("headings".toList ++ [']', '\n']) := rfl
  have second_header : "\n[walk]\n".toList = '\n' :: '[' :: ("walk".toList ++ [']', '\n']) := rfl
  unfold toToml headingsTable walkTable depthField stringField
  rw [first_header, second_header]
  simp only [WrittenTable.text, WrittenEntry.line, line, List.flatMap_cons, List.flatMap_nil,
    List.append_assoc, List.cons_append, List.nil_append, List.append_nil]

/-- The text of a configuration is read as its tables. -/
theorem read_toToml (c : Config) :
    read? c.toToml = some ⟨.explicit, [(headingsTable c.headings).entry, (walkTable c).entry]⟩ := by
  have distinct : ([headingsTable c.headings, walkTable c].map WrittenTable.key).Nodup := by
    change ["headings".toList, "walk".toList].Nodup
    decide
  rw [toToml_eq_tables, read_tables _ _ distinct]
  rfl

/-- A depth is read as the number that it is written as. -/
theorem depth_toNat (depth : UInt8) : depth? (.int depth.toNat) = some depth := by
  have small : (0 : Int) ≤ depth.toNat ∧ (depth.toNat : Int) < 256 := by
    have := depth.toNat_lt
    omega
  rw [depth?, if_pos small]
  simp

theorem duplicates_duplicatesName (d : DuplicateSlugs) :
    duplicates? (.str (duplicatesName d)) = some d := by
  cases d <;> rfl

/-- The options for headings are read from their table, all of them. -/
theorem headings_headingsTable (o : HeadingOptions) : headings? (headingsTable o).entry.2 = some o := by
  have fields : fields? ["min_depth".toList, "max_depth".toList, "duplicate_slugs".toList]
      (headingsTable o).entry.2 =
      some [some (.int o.minDepth.toNat), some (.int o.maxDepth.toNat),
        some (.str (duplicatesName o.duplicateSlugs))] := rfl
  rw [headings?, fields]
  simp only [Option.bind_eq_bind, Option.bind_some, fieldD, depth_toNat, duplicates_duplicatesName]
  rfl

/-- The tables of a configuration give the configuration. -/
theorem ofTable_tables (c : Config) :
    ofTable? ⟨.explicit, [(headingsTable c.headings).entry, (walkTable c).entry]⟩ = some c := by
  have headings : (⟨.explicit, [(headingsTable c.headings).entry, (walkTable c).entry]⟩ : Table).get?
      "headings".toList = some (headingsTable c.headings).entry.2 := rfl
  have walk : (⟨.explicit, [(headingsTable c.headings).entry, (walkTable c).entry]⟩ : Table).get?
      "walk".toList = some (walkTable c).entry.2 := rfl
  have read_walk : walk? (walkTable c).entry.2 = some (c.root, c.extension) := rfl
  rw [ofTable?, headings, walk]
  simp only [fieldD, headings_headingsTable, read_walk, Option.bind_eq_bind, Option.bind_some]
  rfl

/-- The text of a configuration gives that configuration, or its fault. -/
theorem ofToml_toToml (c : Config) :
    ofToml c.toToml =
      match c.fault? with
      | some fault => .error fault
      | none => .ok c := by
  have given : (read? c.toToml).bind ofTable? = some c := by
    rw [read_toToml, Option.bind_some, ofTable_tables]
  unfold ofToml
  cases fault : c.fault? <;> simp only [given, fault]

/-- A configuration without a fault is read back from its text as it is. One with a fault is refused for
that fault when its text is read, and so no text that has been written gives another configuration. -/
theorem written_config_is_read_back (c : Config) :
    (c.validate = .ok () → ofToml c.toToml = .ok c) ∧
    (∀ error, c.validate = .error error →
      ∃ fault, error = .config fault ∧ ofToml c.toToml = .error fault) ∧
    ∀ read, ofToml c.toToml = .ok read → read = c := by
  rw [ofToml_toToml, validate]
  cases c.fault? with
  | none =>
    refine ⟨fun _ => rfl, ?_, ?_⟩
    · intro error refused
      cases refused
    · intro read same
      cases same
      rfl
  | some fault =>
    refine ⟨?_, ?_, ?_⟩
    · intro accepted
      cases accepted
    · intro error refused
      cases refused
      exact ⟨fault, rfl, rfl⟩
    · intro read same
      cases same

/-- A root with three quotes of each kind, a backslash and a line break. -/
example :
    let c : Config := { root := ['\'', '\'', '\'', '"', '"', '"', '\\', '\n'] }
    (ofToml c.toToml).toOption = some c := by
  decide +kernel

end FrontToc.Config
