/-
This file says which symbols the reader accepts of those that the builder makes: it refuses the
symbols of a module that has neither methods nor types to render, because no table of them has rows.
-/

import ClrDecompiler.Proofs.Project.SourcePath
import ClrDecompiler.Proofs.Symbols.RoundTrip

namespace ClrDecompiler

open Metadata Source

namespace Metadata.TableBuilder

/-- The stream of a builder without rows is a header without tables. -/
theorem read_of_absent {builder : TableBuilder} {strings guids blobs data : Bytes}
    {external : List (TableId × Nat)} {sorted : UInt64} (absent : builder.present = [])
    (built : builder.build strings guids blobs external sorted = .ok data) :
    TableStream.read data = .error (.malformed .noTables) := by
  obtain ⟨written, padding, same, whole⟩ := builder.build_of_fits strings guids blobs external
    sorted (builder.fits_of_build built)
  cases built.symm.trans same
  have start : data.toList = [0, 0, 0, 0, 2, 0, heapFlags strings guids blobs, 1] ++
      (Bytes.littleEndian 8 (0 : UInt64).toNat ++
        (Bytes.littleEndian 8 (sorted &&& maskOf []).toNat ++ padding)) := by
    rw [whole, encodeHeader, absent]
    simp only [List.flatMap_nil, List.append_nil, List.nil_append, List.append_assoc]
    rfl
  have enough : ¬ data.size < 24 := by
    have size := congrArg List.length start
    simp only [List.length_append, List.length_cons, List.length_nil, Array.length_toList,
      Bytes.littleEndian_length] at size
    omega
  have major : data.byteAt? 4 = some 2 := Bytes.byteAt?_middle [0, 0, 0, 0] start
  have minor : data.byteAt? 5 = some 0 := Bytes.byteAt?_middle [0, 0, 0, 0, 2] start
  have flags : data.byteAt? 6 = some (heapFlags strings guids blobs) :=
    Bytes.byteAt?_middle [0, 0, 0, 0, 2, 0] start
  have valid : data.word64At? 8 = some 0 := Bytes.word64At?_middle start
  rw [← List.append_assoc] at start
  have mask : data.word64At? 16 = some (sorted &&& maskOf []) := Bytes.word64At?_middle start
  simp only [TableStream.read, if_neg enough, major, minor, flags, valid, mask,
    Bytes.orOutOfBounds]
  rfl

end Metadata.TableBuilder

namespace Symbols

variable {draft : Draft} {entries : List (String × Document)} {rows : List Nat} {module : Module}
  {header id tables image : Bytes} {entryPoint : UInt32}

/-- The reader gets as far as the streams in the symbols. -/
theorem ofBytes_of_streams {root : Root} {part : Bytes} {blobs : Bytes}
    (whole : image.toList = Root.encoding formatVersion (streamsOf header tables blobs))
    (read : Root.read image = .ok root) (headed : root.streamData? image "#Pdb" = some part)
    (path : String) : DebugInfo.ofBytes path image =
      (DebugInfo.readPortable path root image part).mapError (DebugInfo.blame path) := by
  have foreign : ¬ DebugInfo.windowsMagic.isPrefixOf image.toList = true := by
    rw [not_windowsMagic whole]
    exact Bool.false_ne_true
  rw [DebugInfo.ofBytes, if_neg foreign, read]
  simp only [headed]

section Refusal

variable (holds : draft.Holds entries rows) (sized : id.size = DebugInfo.idSize)
  (small : image.size < UInt32.size)
  (tabled : draft.tables.build #[0] Draft.guids.data draft.blobs.data (externalRows module) 0 =
    .ok tables)
  (whole : image.toList = Root.encoding formatVersion
    (streamsOf (headerStream id entryPoint (externalRows module)) tables draft.blobs.data))

include holds sized small tabled whole

/-- Without rows all streams are found, but the one of the tables is refused. -/
theorem ofBytes_of_absent (absent : draft.tables.present = []) (path : String) :
    DebugInfo.ofBytes path image =
      .error (.invalidSymbols path (Fault.message (.malformed .noTables))) := by
  obtain ⟨root, read, headerFound, tablesFound, blobsFound⟩ := read_streams whole small
  rw [Bytes.padded_of_aligned (TableBuilder.build_size_mod_four _ tabled)] at tablesFound
  have refused := TableBuilder.read_of_absent absent tabled
  have heap := holds.ofBytes_blobs
  obtain ⟨identifier, point⟩ := read_headerStream id entryPoint (externalRows module)
  rw [sized] at identifier point
  rw [ofBytes_of_streams whole read headerFound, DebugInfo.readPortable]
  simp only [identifier, point, blobsFound, tablesFound, heap, refused, Option.getD_some,
    Bytes.orOutOfBounds, bind, Except.bind, pure, Except.pure]
  rfl

end Refusal

/-- Every type to render gets a path. -/
theorem sourcePaths_eq_nil_iff : Project.sourcePaths module = [] ↔ renderedTypes module = [] := by
  rw [← Project.assignPaths_types [] (renderedTypes module), List.map_eq_nil_iff,
    Project.sourcePaths]

/-- The symbols that are built for a module can be read exactly if the module has a method or a type
to render. They are portable then, and have the identifier that the module records. Of all other
modules the reader refuses the symbols because they have no tables. An identifier has twenty bytes,
as `Module.symbolsId?_size_of_load` shows of every loaded module. -/
theorem build_readable_iff {render : TypeQuery → Except Fault Document}
    (sized : ∀ id ∈ module.codeView?.bind (·.symbolsId?), id.size = DebugInfo.idSize)
    (built : build module render = .ok image) (small : image.size < 2 ^ 32) (path : String) :
    ((∃ symbols, DebugInfo.ofBytes path image = .ok symbols ∧ symbols.format = .portable ∧
        symbols.id = module.codeView?.bind (·.symbolsId?)) ↔
      0 < module.rowCount .methodDef ∨ renderedTypes module ≠ []) ∧
    (DebugInfo.ofBytes path image =
        .error (.invalidSymbols path "Malformed - No valid rows in any of the tables") ↔
      module.rowCount .methodDef = 0 ∧ renderedTypes module = []) := by
  obtain ⟨id, entries, identified, rendered, draft, tables, holds, tabled, whole⟩ :=
    build_eq_ok built
  have twenty := sized id identified
  have listed : entries ≠ [] ↔ renderedTypes module ≠ [] := by
    rw [Ne, Ne, ← sourcePaths_eq_nil_iff, ← List.length_eq_zero_iff, ← List.length_eq_zero_iff,
      rendered.length_eq]
  have counted : (List.range (module.rowCount .methodDef)).map (· + 1) ≠ [] ↔
      0 < module.rowCount .methodDef := by
    rw [Ne, List.map_eq_nil_iff, List.range_eq_nil, Nat.pos_iff_ne_zero]
  have present : draft.tables.present ≠ [] ↔
      0 < module.rowCount .methodDef ∨ renderedTypes module ≠ [] := by
    rw [holds.present_ne_nil_iff, listed, counted, or_comm]
  have absent : draft.tables.present = [] ↔
      module.rowCount .methodDef = 0 ∧ renderedTypes module = [] := by
    rw [← not_iff_not, ← Ne, present, not_and_or, Nat.pos_iff_ne_zero]
  rw [← present, ← absent]
  by_cases empty : draft.tables.present = []
  · have refused := ofBytes_of_absent holds twenty small tabled whole empty path
    refine ⟨iff_of_false ?_ (not_not.mpr empty), iff_of_true refused empty⟩
    rintro ⟨symbols, accepted, -⟩
    cases refused.symm.trans accepted
  · obtain ⟨-, root, part, read, headed, portable⟩ :=
      readPortable_of_present holds twenty small tabled whole empty path
    have accepted := ofBytes_of_streams whole read headed path
    rw [portable] at accepted
    refine ⟨iff_of_true ⟨_, accepted, rfl, identified.symm⟩ empty, iff_of_false ?_ empty⟩
    intro refused
    cases accepted.symm.trans refused

/-- A module without methods whose only type is not rendered. -/
def bareModule (name : String) : Module :=
  { soleModule with
    tableRows := []
    types := #[⟨⟨0x02000001⟩, 1, "", name, .classType, none, [], [], [], [], none, []⟩] }

theorem build_readable_iff_type : ∃ image symbols,
    build (bareModule "C") soleRender = .ok image ∧
      DebugInfo.ofBytes "a.pdb" image = .ok symbols ∧ symbols.format = .portable ∧
      symbols.id = (bareModule "C").codeView?.bind (·.symbolsId?) := by
  have accepted : ((build (bareModule "C") soleRender).toOption.any
      fun image => decide (image.size < 2 ^ 32)) = true := by decide +kernel
  obtain ⟨image, built, small⟩ := Outcome.ok_of_any accepted
  have sized : ∀ id ∈ (bareModule "C").codeView?.bind (·.symbolsId?),
      id.size = DebugInfo.idSize := by decide
  have rendered : renderedTypes (bareModule "C") ≠ [] := by decide
  obtain ⟨symbols, read⟩ :=
    (build_readable_iff sized built (of_decide_eq_true small) "a.pdb").1.mpr (.inr rendered)
  exact ⟨image, symbols, built, read⟩

/-- The symbols of a module with nothing but the type of its global members are built, and are
refused. -/
theorem bare_symbols_refused : ∃ image, build (bareModule "<Module>") soleRender = .ok image ∧
    image.size < 2 ^ 32 ∧ ∀ symbols, DebugInfo.ofBytes "a.pdb" image ≠ .ok symbols := by
  have refused : ((build (bareModule "<Module>") soleRender).toOption.any fun image =>
      decide (image.size < 2 ^ 32) && !(DebugInfo.ofBytes "a.pdb" image).isOk) = true := by
    decide +kernel
  obtain ⟨image, built, holds⟩ := Outcome.ok_of_any refused
  obtain ⟨small, failed⟩ := Bool.and_eq_true_iff.mp holds
  refine ⟨image, built, of_decide_eq_true small, fun symbols read => ?_⟩
  rw [read] at failed
  cases failed

end Symbols

end ClrDecompiler
