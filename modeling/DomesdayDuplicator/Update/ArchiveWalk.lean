import DomesdayDuplicator.Update.UstarArchive

/-!
# The walk through an archive

The reader's loop on any bytes: where it can stand, that its sums are exact and that
it comes to an end. Then on the writer's own bytes, a file a turn.
-/

namespace ArchiveWalk

open ByteFields FuelLoop UstarArchive
open Manifest (Text text)

/-! ## Any archive -/

/-- The bytes a file of this size takes up, without the wrapping of a `size_t`. -/
def paddedLength (size : Nat) : Nat := (size + kBlockSize - 1) / kBlockSize * kBlockSize

/-- The entries lie one behind the other, before the reader's place. -/
structure Laid (archive : List Byte) (walk : Walk) : Prop where
  inside : walk.offset ≤ archive.length
  distinct : (walk.entries.map BundleEntry.name).Nodup
  behind : ∀ entry ∈ walk.entries, entry.data.start + entry.data.size ≤ walk.offset
  apart : walk.entries.Pairwise fun one other =>
    one.data.start + one.data.size ≤ other.data.start

/-- No sum, no size and no offset of this turn needs more than a `size_t` or a
`uint64_t`, up to the last one computed. -/
structure Exact (archive : List Byte) (walk : Walk) : Prop where
  block : walk.offset + kBlockSize < 2 ^ 64
  stored : ∀ size, readOctal (field (field archive walk.offset kBlockSize) kSizeOffset kSizeSize) =
    some size → size = octalValue (field (field archive walk.offset kBlockSize) kSizeOffset
      kSizeSize) ∧ size < 2 ^ 64
  padded : ∀ name size,
    readHeader walk.entries (field archive walk.offset kBlockSize) = .ok (name, size) →
      size + kBlockSize < 2 ^ 64 ∧ paddedLength size < 2 ^ 64 ∧
        walk.offset + kBlockSize + paddedLength size < 2 ^ 64

theorem sizeT_of_lt {n : Nat} (small : n < 2 ^ 64) : sizeT n = n := Nat.mod_eq_of_lt small

theorem paddedSize_eq {size : Nat} (small : size ≤ kMaximumEntryBytes) :
    paddedSize size = paddedLength size ∧ size ≤ paddedLength size ∧
      paddedLength size ≤ kMaximumEntryBytes := by
  simp only [paddedSize, paddedLength, kMaximumEntryBytes, kBlockSize, sizeT] at small ⊢
  omega

theorem findEntry_eq_none {entries : List BundleEntry} {name : Text} :
    findEntry entries name = none ↔ name ∉ entries.map BundleEntry.name := by
  simp [findEntry]

/-- What an accepted header declares. -/
theorem readHeader_ok {entries : List BundleEntry} {block : List Byte} {name : Text} {size : Nat}
    (read : readHeader entries block = .ok (name, size)) :
    name ∉ entries.map BundleEntry.name ∧ size ≤ kMaximumEntryBytes := by
  simp only [readHeader] at read
  split at read
  · cases read
  split at read
  · cases read
  split at read
  · cases read
  split at read
  · cases read
  split at read
  · cases read
  split at read
  · cases read
  rename_i fresh
  split at read
  · cases read
  split at read
  · cases read
  rename_i small
  simp only [Except.ok.injEq, Prod.mk.injEq] at read
  obtain ⟨rfl, rfl⟩ := read
  exact ⟨findEntry_eq_none.mp (by simpa using fresh), by omega⟩

/-- What one more turn does. -/
theorem turn_again {archive : List Byte} {walk next : Walk} (fits : Addressable archive)
    (inside : walk.offset ≤ archive.length) (again : turn archive walk = .again next) :
    ∃ name size, readHeader walk.entries (field archive walk.offset kBlockSize) =
        .ok (name, size) ∧
      next = ⟨walk.offset + kBlockSize + paddedLength size,
        walk.entries ++ [⟨name, ⟨walk.offset + kBlockSize, size⟩⟩]⟩ ∧
      next.offset ≤ archive.length := by
  simp only [Addressable] at fits
  have block : sizeT (walk.offset + kBlockSize) = walk.offset + kBlockSize :=
    sizeT_of_lt (by simp only [kBlockSize]; omega)
  simp only [turn] at again
  split at again
  · split at again
    · cases again
    cases read : readHeader walk.entries (field archive walk.offset kBlockSize) with
    | error reason => simp [read] at again
    | ok found =>
      obtain ⟨name, size⟩ := found
      obtain ⟨-, small⟩ := readHeader_ok read
      obtain ⟨same, -, bound⟩ := paddedSize_eq small
      have sum : sizeT (walk.offset + kBlockSize + paddedLength size) =
          walk.offset + kBlockSize + paddedLength size :=
        sizeT_of_lt (by simp only [kBlockSize, kMaximumEntryBytes] at *; omega)
      simp only [read, block, same, sum] at again
      split at again
      · cases again
      rename_i whole
      simp only [Turn.again.injEq] at again
      subst again
      exact ⟨name, size, rfl, rfl, by simpa using whole⟩
  · cases again

theorem Laid.start (archive : List Byte) : Laid archive .start := by
  constructor <;> simp [Walk.start]

theorem Laid.turn {archive : List Byte} {walk next : Walk} (fits : Addressable archive)
    (laid : Laid archive walk) (again : UstarArchive.turn archive walk = .again next) :
    Laid archive next ∧ walk.offset + kBlockSize ≤ next.offset := by
  obtain ⟨name, size, read, rfl, inside⟩ := turn_again fits laid.inside again
  obtain ⟨fresh, small⟩ := readHeader_ok read
  obtain ⟨-, room, -⟩ := paddedSize_eq small
  refine ⟨⟨inside, ?_, ?_, ?_⟩, by simp⟩
  · have distinct := laid.distinct
    rw [List.map_append, List.nodup_append]
    simp only [List.map_cons, List.map_nil, List.mem_singleton]
    refine ⟨distinct, by simp, ?_⟩
    rintro other member _ rfl rfl
    exact fresh member
  · intro entry member
    rcases List.mem_append.mp member with old | new
    · have := laid.behind entry old
      simp only
      omega
    · obtain rfl := List.mem_singleton.mp new
      simp only
      omega
  · rw [List.pairwise_append]
    refine ⟨laid.apart, by simp, ?_⟩
    intro one old other new
    obtain rfl := List.mem_singleton.mp new
    have := laid.behind one old
    simp only
    omega

theorem Laid.exact {archive : List Byte} {walk : Walk} (fits : Addressable archive)
    (laid : Laid archive walk) : Exact archive walk := by
  have inside := laid.inside
  simp only [Addressable] at fits
  constructor
  · simp only [kBlockSize]
    omega
  · intro size read
    exact readOctal_exact read
  · intro name size read
    obtain ⟨-, small⟩ := readHeader_ok read
    obtain ⟨-, -, bound⟩ := paddedSize_eq small
    simp only [kBlockSize, kMaximumEntryBytes] at *
    omega

theorem visited_laid {archive : List Byte} {walk : Walk} (fits : Addressable archive)
    (visited : Visits (UstarArchive.turn archive) .start walk) : Laid archive walk :=
  visited.invariant (.start archive) fun _ _ laid again => (laid.turn fits again).left

/-- The entries of an accepted archive. -/
structure WellFormed (archive : List Byte) (entries : List BundleEntry) : Prop where
  distinct : (entries.map BundleEntry.name).Nodup
  inside : ∀ entry ∈ entries, entry.data.start + entry.data.size ≤ archive.length
  apart : entries.Pairwise fun one other => one.data.start + one.data.size ≤ other.data.start

theorem turn_done {archive : List Byte} {walk : Walk} {entries : List BundleEntry}
    (done : UstarArchive.turn archive walk = .done (.ok entries)) : entries = walk.entries := by
  simp only [UstarArchive.turn] at done
  split at done
  · split at done
    · simpa using done.symm
    split at done
    · cases done
    split at done
    · cases done
    · cases done
  · simpa using done.symm

theorem accepted_wellFormed {archive : List Byte} {entries : List BundleEntry} {fuel : Nat}
    (fits : Addressable archive)
    (accepted : readUstarArchive fuel archive = some (.ok entries)) :
    WellFormed archive entries := by
  rw [readUstarArchive] at accepted
  split at accepted
  · cases accepted
  obtain ⟨result, returned, bound⟩ := Option.map_eq_some_iff.mp accepted
  obtain ⟨last, visited, leaves⟩ := visits_of_run returned
  cases result with
  | error reason => cases bound
  | ok found =>
    have same : found = entries := by
      simp only [Except.bind, finished] at bound
      split at bound
      · cases bound
      · exact Except.ok.inj bound
    obtain rfl := same
    obtain rfl := turn_done leaves
    have laid := visited_laid fits visited
    exact ⟨laid.distinct, fun entry member => (laid.behind entry member).trans laid.inside,
      laid.apart⟩

/-- Every turn takes a block of the archive at least. -/
theorem reader_returns {archive : List Byte} (fits : Addressable archive) :
    ∃ result, ∀ fuel, archive.length / kBlockSize < fuel →
      readUstarArchive fuel archive = some result := by
  by_cases refused : archive = [] ∨ archive.length % kBlockSize ≠ 0
  · exact ⟨_, fun fuel _ => if_pos refused⟩
  · obtain ⟨result, returns⟩ := run_returns
      (fun walk : Walk => (archive.length - walk.offset) / kBlockSize)
      (fun walk next (laid : Laid archive walk)
          (again : UstarArchive.turn archive walk = .again next) => by
        obtain ⟨kept, farther⟩ := laid.turn fits again
        have inside := kept.inside
        refine ⟨kept, ?_⟩
        simp only [kBlockSize] at *
        omega)
      (Laid.start archive)
    refine ⟨result.bind finished, fun fuel enough => ?_⟩
    rw [readUstarArchive, if_neg refused, returns fuel (by simpa [Walk.start] using enough)]
    rfl

/-! ## The writer's archive -/

def record (file : File) : List Byte :=
  header file.name file.data.length ++ file.data ++ padding file.data.length

theorem addFile_eq (blocks : List Byte) (file : File) :
    addFile blocks file = blocks ++ record file := by
  simp [addFile, record]

theorem writeArchive_eq (files : List File) :
    writeArchive files = files.flatMap record ++ List.replicate (2 * kBlockSize) 0 := by
  have blocks : ∀ front, files.foldl addFile front = front ++ files.flatMap record := by
    induction files with
    | nil => simp
    | cons file rest ih =>
      intro front
      rw [List.foldl_cons, ih, addFile_eq, List.flatMap_cons, List.append_assoc]
  rw [writeArchive, finish, blocks, List.nil_append]

theorem length_padding (size : Nat) : size + (padding size).length = paddedLength size := by
  simp only [padding, paddedLength]
  by_cases aligned : size % kBlockSize = 0
  · rw [if_neg (not_not.mpr aligned), List.length_nil]
    simp only [kBlockSize] at *
    omega
  · rw [if_pos aligned, List.length_replicate]
    simp only [kBlockSize] at *
    omega

theorem length_record (file : File) :
    (record file).length = kBlockSize + paddedLength file.data.length := by
  rw [record, List.append_assoc, List.length_append, List.length_append, length_header,
    length_padding]

theorem length_records (files : List File) :
    kBlockSize * files.length ≤ (files.flatMap record).length ∧
      (files.flatMap record).length % kBlockSize = 0 := by
  induction files with
  | nil => simp
  | cons file rest ih =>
    obtain ⟨enough, whole⟩ := ih
    rw [List.flatMap_cons, List.length_append, List.length_cons, length_record, paddedLength]
    simp only [kBlockSize] at *
    omega

/-- The file an entry stands for. -/
def contents (archive : List Byte) (entry : BundleEntry) : File :=
  ⟨entry.name, entry.data.bytes archive⟩

/-- The turn that reads what the writer appended for one file. -/
theorem turn_record {front rest : List Byte} {entries : List BundleEntry} {file : File}
    (storable : Storable file) (fresh : file.name ∉ entries.map BundleEntry.name)
    (fits : Addressable (front ++ record file ++ rest)) :
    UstarArchive.turn (front ++ record file ++ rest) ⟨front.length, entries⟩ =
        .again ⟨(front ++ record file).length,
          entries ++ [⟨file.name, ⟨front.length + kBlockSize, file.data.length⟩⟩]⟩ ∧
      contents (front ++ record file ++ rest)
        ⟨file.name, ⟨front.length + kBlockSize, file.data.length⟩⟩ = file := by
  have length := length_record file
  obtain ⟨same, -, -⟩ := paddedSize_eq storable.small
  have total : (front ++ record file ++ rest).length =
      front.length + (kBlockSize + paddedLength file.data.length) + rest.length := by
    simp [length, Nat.add_assoc]
  have here (offset size : Nat) (inside : offset + size ≤ (record file).length) :
      field (front ++ record file ++ rest) (front.length + offset) size =
        field (record file) offset size := by
    rw [List.append_assoc, field_append_right, field_append_left _ inside]
  have head : field (front ++ record file ++ rest) front.length kBlockSize =
      header file.name file.data.length := by
    rw [← Nat.add_zero front.length, here 0 kBlockSize (by omega), record, List.append_assoc,
      field_append_left _ (by simp)]
    simp [field]
  simp only [Addressable, total] at fits
  have block : sizeT (front.length + kBlockSize) = front.length + kBlockSize :=
    sizeT_of_lt (by omega)
  have sum : sizeT (front.length + kBlockSize + paddedLength file.data.length) =
      front.length + kBlockSize + paddedLength file.data.length := sizeT_of_lt (by omega)
  constructor
  · have inside : front.length + kBlockSize ≤ (front ++ record file ++ rest).length := by omega
    have whole : ¬(front ++ record file ++ rest).length <
        front.length + kBlockSize + paddedLength file.data.length := by omega
    simp only [UstarArchive.turn, block, inside, head, header_not_zero, same, sum, whole,
      readHeader_header storable (findEntry_eq_none.mpr fresh), if_true, if_false,
      Bool.false_eq_true]
    rw [List.length_append, length, Nat.add_assoc]
  · have data : field (record file) kBlockSize file.data.length = file.data := by
      have skipped := field_append_right (header file.name file.data.length)
        (file.data ++ padding file.data.length) 0 file.data.length
      rw [length_header, Nat.add_zero] at skipped
      rw [record, List.append_assoc, skipped,
        field_append_left _ (Nat.le_of_eq (Nat.zero_add file.data.length))]
      exact List.take_length
    have inside : kBlockSize + file.data.length ≤ (record file).length := by
      simp [record]
    simp only [contents, Span.bytes, here _ _ inside, data]

/-- The turn at the zero blocks. -/
theorem turn_zeros {front : List Byte} {entries : List BundleEntry}
    (fits : Addressable (front ++ List.replicate (2 * kBlockSize) 0)) :
    UstarArchive.turn (front ++ List.replicate (2 * kBlockSize) 0) ⟨front.length, entries⟩ =
      .done (.ok entries) := by
  have total : (front ++ List.replicate (2 * kBlockSize) (0 : Byte)).length =
      front.length + 2 * kBlockSize := by simp
  have zeros : field (front ++ List.replicate (2 * kBlockSize) 0) front.length kBlockSize =
      List.replicate kBlockSize 0 := by
    have skipped := field_append_right front (List.replicate (2 * kBlockSize) 0) 0 kBlockSize
    rw [Nat.add_zero] at skipped
    rw [skipped, field_replicate _ _ _ (by decide)]
  simp only [Addressable, total] at fits
  have block : sizeT (front.length + kBlockSize) = front.length + kBlockSize :=
    sizeT_of_lt (by omega)
  have zero : isZeroBlock (List.replicate kBlockSize 0) = true := by
    simp [isZeroBlock]
  have inside : front.length + kBlockSize ≤
      (front ++ List.replicate (2 * kBlockSize) (0 : Byte)).length := by omega
  simp only [UstarArchive.turn, block, inside, zeros, zero, if_true]

/-- From any file on, the reader finds the files that are left. -/
theorem run_records {files : List File} {front : List Byte} {entries : List BundleEntry}
    (storable : ∀ file ∈ files, Storable file)
    (distinct : (entries.map BundleEntry.name ++ files.map File.name).Nodup)
    {archive : List Byte}
    (whole : archive = front ++ files.flatMap record ++ List.replicate (2 * kBlockSize) 0)
    (fits : Addressable archive) {fuel : Nat} (enough : files.length < fuel) :
    ∃ found, run (UstarArchive.turn archive) fuel ⟨front.length, entries⟩ =
        some (.ok (entries ++ found)) ∧ found.map (contents archive) = files := by
  obtain ⟨k, rfl⟩ := Nat.exists_eq_add_of_lt enough
  induction files generalizing front entries k with
  | nil =>
    refine ⟨[], ?_, rfl⟩
    rw [List.flatMap_nil, List.append_nil] at whole
    subst whole
    rw [run_done (turn_zeros fits), List.append_nil]
  | cons file rest ih =>
    have regrouped : archive = front ++ record file ++
        (rest.flatMap record ++ List.replicate (2 * kBlockSize) 0) := by
      rw [whole, List.flatMap_cons]
      simp only [List.append_assoc]
    have fresh : file.name ∉ entries.map BundleEntry.name := by
      intro taken
      exact (List.nodup_append.mp distinct).2.2 _ taken _ (by simp) rfl
    obtain ⟨again, kept⟩ := turn_record (storable file (by simp)) fresh (regrouped ▸ fits)
    rw [← regrouped] at again kept
    let entry : BundleEntry := ⟨file.name, ⟨front.length + kBlockSize, file.data.length⟩⟩
    have later : ((entries ++ [entry]).map BundleEntry.name ++ rest.map File.name).Nodup := by
      simpa using distinct
    obtain ⟨found, returned, files_eq⟩ := ih (fun other member => storable other (by simp [member]))
      later (by rw [regrouped, List.append_assoc _ _ (List.replicate _ _)]) k (by omega)
    refine ⟨_ :: found, ?_, by rw [List.map_cons, kept, files_eq]⟩
    rw [show (file :: rest).length + k + 1 = (rest.length + k + 1) + 1 by simp; omega,
      run_again again, returned]
    simp [entry]

theorem read_writeArchive {files : List File} (some_file : files ≠ [])
    (storable : ∀ file ∈ files, Storable file) (distinct : (files.map File.name).Nodup)
    (fits : Addressable (writeArchive files)) {fuel : Nat}
    (enough : (writeArchive files).length / kBlockSize < fuel) :
    ∃ entries, readUstarArchive fuel (writeArchive files) = some (.ok entries) ∧
      entries.map (contents (writeArchive files)) = files := by
  obtain ⟨blocks, whole⟩ := length_records files
  have length : (writeArchive files).length =
      (files.flatMap record).length + 2 * kBlockSize := by
    rw [writeArchive_eq, List.length_append, List.length_replicate]
  have accepted : ¬(writeArchive files = [] ∨ (writeArchive files).length % kBlockSize ≠ 0) := by
    rw [← List.length_eq_zero_iff, length]
    simp only [kBlockSize] at *
    omega
  have turns : files.length < fuel := by
    rw [length] at enough
    simp only [kBlockSize] at *
    omega
  obtain ⟨found, returned, files_eq⟩ := @run_records files [] [] storable
    (by simpa using distinct) (writeArchive files) (by rw [writeArchive_eq, List.nil_append])
    fits fuel turns
  have found_some : found ≠ [] := by
    rintro rfl
    exact some_file (by simpa using files_eq.symm)
  refine ⟨found, ?_, files_eq⟩
  rw [readUstarArchive, if_neg accepted, Walk.start, ← List.length_nil (α := Byte), returned]
  simp [Except.bind, finished, found_some]

theorem length_records_le {files : List File} (storable : ∀ file ∈ files, Storable file) :
    (files.flatMap record).length ≤ files.length * (kBlockSize + kMaximumEntryBytes) := by
  induction files with
  | nil => simp
  | cons file rest ih =>
    have later := ih fun other member => storable other (by simp [member])
    obtain ⟨-, -, bound⟩ := paddedSize_eq (storable file (by simp)).small
    rw [List.flatMap_cons, List.length_append, length_record, List.length_cons, Nat.add_mul,
      Nat.one_mul]
    omega

/-- As many files as anyone has are no more than can be addressed. -/
theorem addressable_writeArchive {files : List File} (storable : ∀ file ∈ files, Storable file)
    (few : files.length < 2 ^ 32) : Addressable (writeArchive files) := by
  have bound := length_records_le storable
  rw [Addressable, writeArchive_eq, List.length_append, List.length_replicate]
  simp only [kBlockSize, kMaximumEntryBytes] at *
  omega

/-- What the writer produces is read back, and what is accepted at all is well formed: the
walk ends, its arithmetic is exact and the spans it hands out are disjoint. -/
theorem archive_round_trip :
    (∀ files : List File, files ≠ [] → (files.map File.name).Nodup →
      (∀ file ∈ files, Storable file) → Addressable (writeArchive files) →
      ∀ fuel, (writeArchive files).length / kBlockSize < fuel →
        ∃ entries, readUstarArchive fuel (writeArchive files) = some (.ok entries) ∧
          entries.map (contents (writeArchive files)) = files) ∧
    ∀ archive, Addressable archive →
      (∃ result, ∀ fuel, archive.length / kBlockSize < fuel →
        readUstarArchive fuel archive = some result) ∧
      (∀ walk, Visits (UstarArchive.turn archive) .start walk → Exact archive walk) ∧
      ∀ fuel entries, readUstarArchive fuel archive = some (.ok entries) →
        WellFormed archive entries := by
  constructor
  · intro files some_file distinct storable fits fuel enough
    exact read_writeArchive some_file storable distinct fits enough
  · intro archive fits
    refine ⟨reader_returns fits, ?_, ?_⟩
    · intro walk visited
      exact (visited_laid fits visited).exact fits
    · intro fuel entries accepted
      exact accepted_wellFormed fits accepted

/-- A file of one byte. -/
def oneByte : File := ⟨text "a", [7]⟩

theorem one_byte_archived : ∃ entries,
    readUstarArchive 5 (writeArchive [oneByte]) = some (.ok entries) ∧
      entries.map (contents (writeArchive [oneByte])) = [oneByte] ∧
      WellFormed (writeArchive [oneByte]) entries := by
  have length : (writeArchive [oneByte]).length = 2048 := by
    rw [writeArchive_eq, List.length_append, List.length_replicate]
    simp [length_record, oneByte, paddedLength, kBlockSize]
  have storable : ∀ file ∈ [oneByte], Storable file := by
    intro file member
    obtain rfl := List.mem_singleton.mp member
    constructor <;> decide
  have fits := addressable_writeArchive storable (by decide)
  obtain ⟨entries, read, same⟩ := archive_round_trip.left [oneByte] (by decide) (by decide)
    storable fits 5 (by rw [length]; decide)
  exact ⟨entries, read, same, (archive_round_trip.right _ fits).right.right 5 entries read⟩

end ArchiveWalk
