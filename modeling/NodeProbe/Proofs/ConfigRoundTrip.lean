import NodeProbe.Config
import NodeProbe.Proofs.TomlDocuments

/-!
# A saved configuration loads back

The document of a configuration has every setting, so nothing is left to defaults when it is read.
A configuration that was loaded can be saved, because sizes are read from integers of 64 signed
bits. All this holds for any format that reads back what it writes.
-/
namespace NodeProbe.Config

open Number

/-! ## Sizes -/

theorem size?_toInt64 {n : UInt64} (h : n.toNat ≤ maxInt64) :
    size? (.integer n.toInt64) = some n := by
  have hnonneg : 0 ≤ n.toInt64 := by
    rw [Int64.le_iff_toInt_le, toInt_toInt64, if_pos h]
    exact Int.natCast_nonneg _
  rw [size?, if_pos hnonneg, UInt64.toUInt64_toInt64]

theorem size?_le {v : Datum} {n : UInt64} (h : size? v = some n) : n.toNat ≤ maxInt64 := by
  unfold size? at h
  split at h
  · split at h
    · cases h
      rw [Int64.toNat_toUInt64_of_le ‹_›]
      exact Nat.le_of_lt_succ (Int64.toNatClampNeg_lt _)
    · cases h
  · cases h

/-! ## The document -/

theorem document_fits (c : Config) : c.document.fits = true ↔
    c.threads.maxNameWidth.toNat ≤ maxInt64 ∧ c.threads.defaultLimit.toNat ≤ maxInt64 := by
  have hfile : Settings.fits (c.logging.file.toList.map fun file => ("file", .text file)) = true := by
    cases c.logging.file <;> rfl
  simp [Document.fits, document, Settings.fits, Setting.fits]

theorem document_keys (c : Config) :
    c.document.keys = ["node_name", "threads", "monitoring", "logging"] := rfl

theorem section_keys {c : Config} {s : String × Settings} (hs : s ∈ c.document.sections) :
    s.2.map (·.1) ∈ [["max_name_width", "default_limit"], ["cpu", "contention", "task_root"],
      ["filter"], ["filter", "file"]] := by
  simp only [document, List.mem_cons, List.not_mem_nil, or_false] at hs
  rcases hs with rfl | rfl | rfl
  · simp
  · simp
  · cases c.logging.file <;> simp

/-- The keys of a configuration are bare and stand once. -/
theorem document_plain {c : Config} (h : c.document.fits = true) : c.document.Plain where
  fits := h
  keys := by
    rw [document_keys]
    decide
  bare := by
    rw [document_keys]
    decide
  sectionKeys s hs := by
    have hnodup : ∀ keys ∈ [["max_name_width", "default_limit"], ["cpu", "contention", "task_root"],
        ["filter"], ["filter", "file"]], keys.Nodup := by decide
    exact hnodup _ (section_keys hs)
  sectionBare s hs := by
    have hbare : ∀ keys ∈ [["max_name_width", "default_limit"], ["cpu", "contention", "task_root"],
        ["filter"], ["filter", "file"]], ∀ key ∈ keys, BareKey key := by decide
    exact hbare _ (section_keys hs)

theorem readThreads_fields {threads : ReportLayout} (hwidth : threads.maxNameWidth.toNat ≤ maxInt64)
    (hlimit : threads.defaultLimit.toNat ≤ maxInt64) :
    readThreads [("max_name_width", .integer threads.maxNameWidth.toInt64),
      ("default_limit", .integer threads.defaultLimit.toInt64)] = some threads := by
  show (do
    let maxNameWidth ← size? (.integer threads.maxNameWidth.toInt64)
    let defaultLimit ← size? (.integer threads.defaultLimit.toInt64)
    return ({ maxNameWidth, defaultLimit } : ReportLayout)) = _
  rw [size?_toInt64 hwidth, size?_toInt64 hlimit]
  rfl

theorem readLogging_fields (logging : LoggingConfig) :
    readLogging (Settings.fields (("filter", .text logging.filter) ::
      logging.file.toList.map fun file => ("file", .text file))) = some logging := by
  obtain ⟨filter, file⟩ := logging
  cases file <;> rfl

/-- Every setting is found in the document under the key it was put under. -/
theorem ofFields_document (format : DocumentFormat) {c : Config} (h : c.document.fits = true) :
    ofFields format c.document.fields = some c := by
  obtain ⟨hwidth, hlimit⟩ := (document_fits c).mp h
  show (do
    let threads ← readThreads [("max_name_width", .integer c.threads.maxNameWidth.toInt64),
      ("default_limit", .integer c.threads.defaultLimit.toInt64)]
    let logging ← readLogging (Settings.fields (("filter", .text c.logging.filter) ::
      c.logging.file.toList.map fun file => ("file", .text file)))
    return { c with threads, logging }) = _
  rw [readThreads_fields hwidth hlimit, readLogging_fields]
  rfl

/-! ## Saving and loading -/

theorem load_save {format : DocumentFormat} (hformat : format.ReadsBack) {c : Config}
    (h : c.document.fits = true) :
    ∃ text, c.save format = .ok text ∧ ∀ path, load path (some text) format = .ok c := by
  obtain ⟨text, hwrite, hread⟩ := hformat c.document (document_plain h)
  refine ⟨text, ?_, fun path => ?_⟩
  · unfold save
    rw [hwrite]
  · unfold load parse
    dsimp only
    rw [hread, Option.bind_some, ofFields_document format h]

/-- A setting is the default or was read from a value. -/
theorem setting_eq_some {fields : Datum.Fields} {key : String} {α : Type} {read : Datum → Option α}
    {default x : α} (h : setting fields key read default = some x) :
    x = default ∨ ∃ v, read v = some x := by
  unfold setting at h
  split at h
  · exact .inl (Option.some.inj h).symm
  · exact .inr ⟨_, h⟩

theorem setting_size_le {fields : Datum.Fields} {key : String} {default n : UInt64}
    (hdefault : default.toNat ≤ maxInt64) (h : setting fields key size? default = some n) :
    n.toNat ≤ maxInt64 := by
  rcases setting_eq_some h with rfl | ⟨v, hread⟩
  · exact hdefault
  · exact size?_le hread

theorem readThreads_le {fields : Datum.Fields} {threads : ReportLayout}
    (h : readThreads fields = some threads) :
    threads.maxNameWidth.toNat ≤ maxInt64 ∧ threads.defaultLimit.toNat ≤ maxInt64 := by
  obtain ⟨maxNameWidth, hwidth, h⟩ := Option.bind_eq_some_iff.mp h
  obtain ⟨defaultLimit, hlimit, h⟩ := Option.bind_eq_some_iff.mp h
  cases h
  exact ⟨setting_size_le (by decide) hwidth, setting_size_le (by decide) hlimit⟩

/-- Whatever a section stands as, its settings were read from fields. -/
theorem section?_eq_some {format : DocumentFormat} {keys : List String} {α : Type}
    {read : Datum.Fields → Option α} {v : Datum} {x : α}
    (h : section? format keys read v = some x) : ∃ fields, read fields = some x := by
  cases v with
  | table fields => exact ⟨fields, h⟩
  | text _ | integer _ | float | flag _ | moment | array _ =>
    obtain ⟨fields, -, hread⟩ := Option.bind_eq_some_iff.mp h
    exact ⟨fields, hread⟩

theorem ofFields_fits {format : DocumentFormat} {fields : Datum.Fields} {c : Config}
    (h : ofFields format fields = some c) : c.document.fits = true := by
  obtain ⟨nodeName, -, h⟩ := Option.bind_eq_some_iff.mp h
  obtain ⟨threads, hthreads, h⟩ := Option.bind_eq_some_iff.mp h
  obtain ⟨monitoring, -, h⟩ := Option.bind_eq_some_iff.mp h
  obtain ⟨logging, -, h⟩ := Option.bind_eq_some_iff.mp h
  cases h
  rw [document_fits]
  rcases setting_eq_some hthreads with rfl | ⟨v, hread⟩
  · exact ⟨Nat.le_of_ble_eq_true rfl, Nat.zero_le _⟩
  · obtain ⟨fields, hread⟩ := section?_eq_some hread
    exact readThreads_le hread

/-- What a file gives can be saved, because its sizes were read as 64 signed bits. -/
theorem load_fits {format : DocumentFormat} {path : String} {content : Option String} {c : Config}
    (h : load path content format = .ok c) : c.document.fits = true := by
  cases content with
  | none => cases h
  | some text =>
    unfold load at h
    dsimp only at h
    split at h
    · cases h
      obtain ⟨fields, -, hfields⟩ := Option.bind_eq_some_iff.mp ‹_›
      exact ofFields_fits hfields
    · cases h

/-- Every configuration that a document can hold is loaded as it was saved; every loaded
configuration is such, and where loading succeeds nothing is left to the defaults of a file that is
of no use. Of the format this takes no more than that it reads back what it writes. -/
theorem saved_config_loads_back (format : DocumentFormat) (hformat : format.ReadsBack) :
    (∀ c : Config, c.threads.maxNameWidth.toNat < 2 ^ 63 → c.threads.defaultLimit.toNat < 2 ^ 63 →
      ∃ text, c.save format = .ok text ∧ ∀ path, load path (some text) format = .ok c) ∧
    (∀ path content c, load path content format = .ok c →
      (∃ text, c.save format = .ok text ∧ ∀ path', load path' (some text) format = .ok c) ∧
      loadOrDefault path content format = c) := by
  refine ⟨fun c hwidth hlimit => load_save hformat ?_, fun path content c h => ⟨?_, ?_⟩⟩
  · exact (document_fits c).mpr ⟨Nat.le_of_lt_succ hwidth, Nat.le_of_lt_succ hlimit⟩
  · exact load_save hformat (load_fits h)
  · unfold loadOrDefault
    rw [h]
    rfl

/-- Quotes of both kinds, a line end and a control character in a name, and the largest size. -/
def awkwardConfig : Config where
  nodeName := "a\"'\n\x01é"
  threads := { defaultLimit := 9223372036854775807 }
  logging := { file := some "C:\\log" }

/-- In TOML the configuration of a partial file and an awkward one load back. -/
theorem toml_config_loads_back :
    (∃ text, awkwardConfig.save = .ok text ∧ load "probe.toml" (some text) = .ok awkwardConfig) ∧
    (∃ text, ({ threads := { defaultLimit := 20 } } : Config).save = .ok text ∧
      load "probe.toml" (some text) = .ok { threads := { defaultLimit := 20 } }) := by
  obtain ⟨hsaved, hloaded⟩ := saved_config_loads_back Toml.format Toml.format_readsBack
  have hpartial : load "probe.toml" (some "[threads]\ndefault_limit = 20\n") =
      .ok { threads := { defaultLimit := 20 } } := by
    decide +kernel
  obtain ⟨text, hsave, hload⟩ := hsaved awkwardConfig (by decide) (by decide)
  obtain ⟨⟨text', hsave', hload'⟩, -⟩ := hloaded _ _ _ hpartial
  exact ⟨⟨text, hsave, hload _⟩, text', hsave', hload' _⟩

end NodeProbe.Config
