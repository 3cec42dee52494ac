import TenantReports.Proofs.Storage.Files

/-!
What keys mean as paths. A key that is not refused leads down from the root, past no entry that
stands for another directory, and different keys lead to different paths.
-/

namespace TenantReports

theorem Text.not_mem_of_mem_split {separator : Char} {part cs : List Char}
    (h : part ∈ split separator cs) : separator ∉ part := by
  induction cs generalizing part with
  | nil =>
      obtain rfl := List.mem_singleton.mp h
      exact List.not_mem_nil
  | cons c cs ih =>
      unfold split at h
      split at h
      · rcases List.mem_cons.mp h with rfl | h
        · exact List.not_mem_nil
        · exact ih h
      · next hc =>
          cases hparts : split separator cs with
          | nil => exact absurd hparts (split_ne_nil separator cs)
          | cons first parts =>
              rw [hparts] at h ih
              rcases List.mem_cons.mp h with rfl | h
              · exact List.not_mem_cons_of_ne_of_not_mem (Ne.symm hc) (ih List.mem_cons_self)
              · exact ih (List.mem_cons_of_mem _ h)

namespace FilePath

variable {key other part name : String} {path names root : FilePath}

/-- The keys that no file is stored under: the empty one, those that start at the top, and those
with a part that names no entry of the directory it is looked up in. -/
def IsUnsafe (key : String) : Prop :=
  key = "" ∨ key.toList.head? = some '/' ∨
    ∃ part ∈ ofKey key, part = "" ∨ part = "." ∨ part = ".."

instance : DecidablePred IsUnsafe := fun key =>
  inferInstanceAs (Decidable (key = "" ∨ key.toList.head? = some '/' ∨
    ∃ part ∈ ofKey key, part = "" ∨ part = "." ∨ part = ".."))

theorem isEntryName_iff : isEntryName part = true ↔ ¬(part = "" ∨ part = "." ∨ part = "..") := by
  simp [isEntryName, not_or, and_assoc]

/-- A key that is empty or starts at the top has an empty part. -/
theorem empty_mem_ofKey (h : key = "" ∨ key.toList.head? = some '/') : "" ∈ ofKey key := by
  unfold ofKey
  rcases h with rfl | h
  · decide
  · obtain ⟨rest, hrest⟩ := List.head?_eq_some_iff.mp h
    rw [hrest, Text.split, if_pos rfl]
    exact List.mem_cons_self

theorem isUnsafe_iff : IsUnsafe key ↔ ∃ part ∈ ofKey key, part = "" ∨ part = "." ∨ part = ".." := by
  constructor
  · rintro (h | h | h)
    · exact ⟨"", empty_mem_ofKey (.inl h), .inl rfl⟩
    · exact ⟨"", empty_mem_ofKey (.inr h), .inl rfl⟩
    · exact h
  · exact fun h => .inr (.inr h)

theorem not_isUnsafe_iff : ¬IsUnsafe key ↔ (ofKey key).all isEntryName = true := by
  simp only [isUnsafe_iff, List.all_eq_true, isEntryName_iff, not_exists, not_and]

theorem ofKey?_of_isUnsafe (h : IsUnsafe key) :
    ofKey? key = .error (.invalidIdentifier (.text key)) := by
  unfold ofKey?
  exact if_neg (mt not_isUnsafe_iff.mpr (not_not_intro h))

theorem ofKey?_of_not_isUnsafe (h : ¬IsUnsafe key) : ofKey? key = .ok (ofKey key) := by
  unfold ofKey?
  exact if_pos (not_isUnsafe_iff.mp h)

theorem ofKey_ne_nil (key : String) : ofKey key ≠ [] :=
  mt List.map_eq_nil_iff.mp (Text.split_ne_nil _ _)

theorem slash_not_mem_of_mem_ofKey (h : part ∈ ofKey key) : '/' ∉ part.toList := by
  obtain ⟨cs, hcs, rfl⟩ := List.mem_map.mp h
  rw [String.toList_ofList]
  exact Text.not_mem_of_mem_split hcs

/-! Where a key leads -/

/-- Where one part of a path leads from a directory: an empty one and a dot stay, two dots go up,
and any other goes down to the entry of that name. -/
def follow (directory : FilePath) (part : String) : FilePath :=
  if part = "" ∨ part = "." then directory
  else if part = ".." then directory.dropLast
  else directory ++ [part]

/-- Where a key leads from a directory. One that starts with a slash starts at the top. -/
def resolve (directory : FilePath) (key : String) : FilePath :=
  (ofKey key).foldl follow (if key.toList.head? = some '/' then [] else directory)

theorem follow_of_isEntryName (h : isEntryName part = true) (directory : FilePath) :
    follow directory part = directory ++ [part] := by
  obtain ⟨hempty, hdot, hup⟩ : part ≠ "" ∧ part ≠ "." ∧ part ≠ ".." := by
    simpa only [not_or] using isEntryName_iff.mp h
  unfold follow
  rw [if_neg (not_or.mpr ⟨hempty, hdot⟩), if_neg hup]

theorem foldl_follow (h : names.all isEntryName = true) (directory : FilePath) :
    names.foldl follow directory = directory ++ names := by
  induction names generalizing directory with
  | nil => exact (List.append_nil directory).symm
  | cons name names ih =>
      obtain ⟨hname, hnames⟩ := Bool.and_eq_true_iff.mp (List.all_cons ▸ h)
      rw [List.foldl_cons, follow_of_isEntryName hname, ih hnames, List.append_assoc,
        List.singleton_append]

/-- A key that is not refused never leaves the directory that it starts from. -/
theorem resolve_of_not_isUnsafe (h : ¬IsUnsafe key) (root : FilePath) :
    resolve root key = root ++ ofKey key := by
  unfold resolve
  rw [if_neg fun hslash => h (.inr (.inl hslash))]
  exact foldl_follow (not_isUnsafe_iff.mp h) root

example : resolve ["exports"] "../secrets" = ["secrets"] := by decide +kernel

theorem resolve_inj (hkey : ¬IsUnsafe key) (hother : ¬IsUnsafe other)
    (h : resolve root key = resolve root other) : key = other := by
  rw [resolve_of_not_isUnsafe hkey, resolve_of_not_isUnsafe hother] at h
  exact ofKey_injective (List.append_cancel_left h)

/-! What the file system takes -/

/-- The file system takes the path: each of its names, and the whole in its length. -/
def IsStorable (path : FilePath) : Prop :=
  (∀ name ∈ path, hasZero name = false ∧ isNameTooLong name = false) ∧ isTooLong path = false

instance : DecidablePred IsStorable := fun path =>
  inferInstanceAs (Decidable ((∀ name ∈ path, hasZero name = false ∧ isNameTooLong name = false) ∧
    isTooLong path = false))

theorem IsStorable.any_hasZero (h : IsStorable path) (hnames : ∀ name ∈ names, name ∈ path) :
    names.any hasZero = false := by
  rw [List.any_eq_false]
  intro name hname
  rw [(h.1 name (hnames name hname)).1]
  exact Bool.false_ne_true

theorem toKey_concat (h : names ≠ []) (name : String) :
    toKey (names ++ [name]) = toKey names ++ "/" ++ name := by
  unfold toKey
  rw [String.intercalate_append_of_ne_nil h (List.cons_ne_nil _ _), String.intercalate_singleton]

theorem utf8ByteSize_toKey_dropLast (path : FilePath) :
    (toKey path.dropLast).utf8ByteSize ≤ (toKey path).utf8ByteSize := by
  rcases List.eq_nil_or_concat' path with rfl | ⟨names, name, rfl⟩
  · exact le_rfl
  · rw [List.dropLast_concat]
    by_cases hnames : names = []
    · rw [hnames]
      exact Nat.zero_le _
    · rw [toKey_concat hnames, String.utf8ByteSize_append, String.utf8ByteSize_append,
        Nat.add_assoc]
      exact Nat.le_add_right _ _

theorem IsStorable.isTooLong_dropLast (h : IsStorable path) : isTooLong path.dropLast = false := by
  have hpath : (toKey path).utf8ByteSize ≤ pathLimit := not_lt.mp (of_decide_eq_false h.2)
  exact decide_eq_false (not_lt.mpr ((utf8ByteSize_toKey_dropLast path).trans hpath))

end FilePath

end TenantReports
