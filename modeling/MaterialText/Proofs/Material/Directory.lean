import Mathlib.Data.List.Basic
import Mathlib.Tactic.Tauto
import MaterialText.Directory

namespace MaterialText.Directory

variable {d : Directory} {files : List (Text × ByteArray)} {input bytes : ByteArray}
  {way parts : List Text} {part name : Text}

theorem segments_ne_nil (path : Text) : segments path ≠ [] := by
  cases path with
  | nil => simp [segments]
  | cons c rest =>
    rw [segments]
    split
    · simp
    · split <;> simp

theorem segments_cons {c : Char} {rest first : Text} {others : List Text} (hc : c ≠ '/')
    (h : segments rest = first :: others) : segments (c :: rest) = (c :: first) :: others := by
  rw [segments, if_neg hc, h]

theorem intercalate_segments (path : Text) : List.intercalate ['/'] (segments path) = path := by
  induction path with
  | nil => rfl
  | cons c rest ih =>
    obtain ⟨first, others, h⟩ := List.exists_cons_of_ne_nil (segments_ne_nil rest)
    rw [h] at ih
    by_cases hc : c = '/'
    · rw [segments, if_pos hc, h, List.intercalate_cons_cons, ih, hc]
      rfl
    · rw [segments_cons hc h]
      cases others with
      | nil => simpa using ih
      | cons second others => simpa [List.intercalate_cons_cons] using ih

theorem segments_injective : Function.Injective segments := fun a b h => by
  rw [← intercalate_segments a, h, intercalate_segments]

theorem segments_of_not_mem (h : '/' ∉ name) : segments name = [name] := by
  induction name with
  | nil => rfl
  | cons c rest ih =>
    obtain ⟨hc, hrest⟩ := List.ne_and_not_mem_of_not_mem_cons h
    exact segments_cons (Ne.symm hc) (ih hrest)

/-- A part of a path that stands for an entry of the directory reached so far. -/
structure IsName (part : Text) : Prop where
  moves : stays part = false
  descends : climbs part = false
  fits : Text.byteLength part ≤ maxPart

theorem IsName.tooLong_eq_false (h : IsName part) (way : List Text) : tooLong way part = false := by
  rw [tooLong, decide_eq_false (Nat.not_lt.mpr h.fits), Bool.false_and]

/-- The files that a program finds below its own directory are those of the directory. -/
theorem find?_files_root (d : Directory) (input : ByteArray) (way : List Text) :
    ((d.root input).files.find? fun file => file.1 == workingWay ++ way) =
      (d.files.find? fun file => file.1 == way).map fun file => (workingWay ++ file.1, file.2) := by
  have hdevice : ∀ system ∈ [segments "dev/null".toList, segments "dev/stdin".toList,
      segments "proc/self/fd/0".toList], (system == workingWay ++ way) = false := by
    simp [segments, workingWay]
  have hbelow (a b : List Text) : (workingWay ++ a == workingWay ++ b) = (a == b) := by
    rw [Bool.eq_iff_iff]
    simp
  simp only [List.mem_cons, List.not_mem_nil, or_false, forall_eq_or_imp, forall_eq] at hdevice
  simp only [root, List.find?_cons, hdevice, List.find?_map, Function.comp_def, hbelow]

theorem find?_links_root (d : Directory) (input : ByteArray) (way : List Text) :
    ((d.root input).links.find? fun link => link.1 == workingWay ++ way) = none := by
  simp [root, segments, workingWay]

theorem lookup?_file (h : d.files.find? (fun file => file.1 == way) = some (way, bytes)) :
    (d.root input).lookup? (workingWay ++ way) = some (.file bytes) := by
  rw [lookup?, find?_files_root, h]
  rfl

theorem lookup?_directory (h : d.files.find? (fun file => file.1 == way) = none)
    (hbelow : ∃ file ∈ d.files, way <+: file.1) :
    (d.root input).lookup? (workingWay ++ way) = some (.directory (workingWay ++ way)) := by
  obtain ⟨file, hfile, hway⟩ := hbelow
  have hany : ((d.root input).files.map Prod.fst ++ (d.root input).folders).any
      (workingWay ++ way).isPrefixOf = true := by
    refine List.any_eq_true.mpr ⟨workingWay ++ file.1, ?_, ?_⟩
    · refine List.mem_append_left _ (List.mem_map.mpr ⟨(workingWay ++ file.1, file.2), ?_, rfl⟩)
      simp only [root, List.mem_cons]
      exact .inr (.inr (.inr (List.mem_map.mpr ⟨file, hfile, rfl⟩)))
    · exact List.isPrefixOf_iff_prefix.mpr ((List.prefix_append_right_inj _).mpr hway)
  rw [lookup?, find?_files_root, h, find?_links_root, hany]
  rfl

theorem lookup?_none (h : ∀ file ∈ d.files, ¬way <+: file.1) :
    (d.root input).lookup? (workingWay ++ way) = none := by
  have hfile : d.files.find? (fun file => file.1 == way) = none := by
    refine List.find?_eq_none.mpr fun file hfile heq => h file hfile ?_
    exact beq_iff_eq.mp heq ▸ List.prefix_refl _
  have hsystem : ∀ system ∈ segments "dev/null".toList :: segments "dev/stdin".toList ::
      segments "proc/self/fd/0".toList :: usualFolders, ¬workingWay <+: system := by decide
  have hnot : ((d.root input).files.map Prod.fst ++ (d.root input).folders).any
      (workingWay ++ way).isPrefixOf = false := by
    refine List.any_eq_false.mpr fun entry hentry hprefix => ?_
    have hprefix := List.isPrefixOf_iff_prefix.mp hprefix
    have hworking := (List.prefix_append _ _).trans hprefix
    -- What the system has besides lies elsewhere.
    have hcases : entry ∈ segments "dev/null".toList :: segments "dev/stdin".toList ::
        segments "proc/self/fd/0".toList :: usualFolders ∨
          ∃ file ∈ d.files, workingWay ++ file.1 = entry := by
      simp only [root, List.map_cons, List.map_map, List.cons_append, List.mem_cons,
        List.mem_append, List.mem_map, Function.comp_apply] at hentry ⊢
      tauto
    obtain hmem | ⟨file, hfile, rfl⟩ := hcases
    · exact hsystem entry hmem hworking
    · exact h file hfile ((List.prefix_append_right_inj _).mp hprefix)
  rw [lookup?, find?_files_root, hfile, find?_links_root, hnot]
  rfl

theorem follow_cons (h : IsName part) (way rest : List Text) :
    d.follow way (part :: rest) =
      match d.lookup? (way ++ [part]) with
      | none => .error .notFound
      | some (.directory next) => d.follow next rest
      | some (.file bytes) => if rest = [] then .ok (.file bytes) else .error .notDirectory := by
  rw [follow, h.moves, h.descends, h.tooLong_eq_false]
  rfl

/-- Names are followed down to a file if no file stands above it. -/
theorem follow_root (hparts : ∀ part ∈ parts, IsName part) (hne : parts ≠ [])
    (hfile : d.files.find? (fun file => file.1 == way ++ parts) = some (way ++ parts, bytes))
    (habove : ∀ file ∈ d.files, file.1 <+: way ++ parts → file.1 = way ++ parts) :
    (d.root input).follow (workingWay ++ way) parts = .ok (.file bytes) := by
  induction parts generalizing way with
  | nil => exact absurd rfl hne
  | cons part rest ih =>
    rw [follow_cons (hparts part (by simp)), List.append_assoc]
    by_cases hrest : rest = []
    · subst hrest
      rw [lookup?_file hfile]
      rfl
    · have hsplit : way ++ part :: rest = (way ++ [part]) ++ rest := by simp
      rw [hsplit] at hfile habove
      have hshorter : way ++ [part] ≠ (way ++ [part]) ++ rest := by simpa using hrest
      have hnone : d.files.find? (fun file => file.1 == way ++ [part]) = none := by
        refine List.find?_eq_none.mpr fun file hmem heq => ?_
        have heq := beq_iff_eq.mp heq
        exact hshorter (heq ▸ habove file hmem (heq ▸ List.prefix_append _ _))
      rw [lookup?_directory hnone ⟨_, List.mem_of_find?_eq_some hfile, List.prefix_append _ _⟩]
      exact ih (fun part hpart => hparts part (by simp [hpart])) hrest hfile habove

theorem find?_ofFiles (h : files.lookup name = some bytes) :
    (ofFiles files).files.find? (fun file => file.1 == segments name) =
      some (segments name, bytes) := by
  induction files with
  | nil => cases h
  | cons file files ih =>
    obtain ⟨key, found⟩ := file
    by_cases hkey : key = name
    · subst hkey
      simp only [List.lookup_cons_self, Option.some.injEq] at h
      simp [ofFiles, h]
    · have hne : (segments key == segments name) = false :=
        beq_eq_false_iff_ne.mpr fun h => hkey (segments_injective h)
      have hname : (name == key) = false := beq_eq_false_iff_ne.mpr (Ne.symm hkey)
      rw [List.lookup_cons, hname] at h
      rw [ofFiles, List.map_cons, List.find?_cons, hne]
      exact ih h

/-- A path of names that the system takes. -/
structure IsPath (name : Text) : Prop where
  names : ∀ part ∈ segments name, IsName part
  fits : Text.byteLength name ≤ maxPath
  noNull : '\x00' ∉ name

theorem isPath_of_name (h : IsName name) (hslash : '/' ∉ name) (hnull : '\x00' ∉ name) :
    IsPath name where
  names := by simpa [segments_of_not_mem hslash] using h
  fits := Nat.le_trans h.fits (by decide)
  noNull := hnull

theorem IsPath.find_eq (h : IsPath name) :
    d.find input name = (d.root input).follow workingWay (segments name) := by
  have hpart : [] ∉ segments name := fun hmem => by cases (h.names [] hmem).moves
  have hname : name ≠ [] := by
    rintro rfl
    exact hpart (by simp [segments])
  have hhead : name.head? ≠ some '/' := by
    intro hslash
    obtain ⟨rest, rfl⟩ := List.head?_eq_some_iff.mp hslash
    exact hpart (by simp [segments])
  rw [find, if_neg hname, if_neg (Nat.not_lt.mpr h.fits), if_neg hhead]

/-- A path of names reads the file that was put there, if no file stands above it. -/
theorem read_of_lookup (h : IsPath name) (hfound : files.lookup name = some bytes)
    (habove : ∀ file ∈ files, segments file.1 <+: segments name → file.1 = name) :
    (ofFiles files).read input name = .ok bytes := by
  have hways : ∀ file ∈ (ofFiles files).files, file.1 <+: segments name →
      file.1 = segments name := by
    intro file hmem hprefix
    obtain ⟨file', hfile', rfl⟩ := List.mem_map.mp hmem
    exact congrArg segments (habove file' hfile' hprefix)
  have hfollow : ((ofFiles files).root input).follow (workingWay ++ []) (segments name) =
      .ok (.file bytes) :=
    follow_root h.names (segments_ne_nil name) (find?_ofFiles hfound) hways
  rw [List.append_nil] at hfollow
  rw [read, if_neg h.noNull, h.find_eq, hfollow]

/-- A name that no file's path starts with is not found. -/
theorem read_of_absent (h : IsName name) (hslash : '/' ∉ name) (hnull : '\x00' ∉ name)
    (hfiles : ∀ file ∈ files, (segments file.1).head? ≠ some name) :
    (ofFiles files).read input name = .error .notFound := by
  have hbelow : ∀ file ∈ (ofFiles files).files, ¬[name] <+: file.1 := by
    rintro file hmem ⟨rest, hrest⟩
    obtain ⟨file', hfile', rfl⟩ := List.mem_map.mp hmem
    exact hfiles file' hfile' (by rw [show segments file'.1 = [name] ++ rest from hrest.symm]; rfl)
  rw [read, if_neg hnull, (isPath_of_name h hslash hnull).find_eq, segments_of_not_mem hslash,
    follow_cons h, lookup?_none hbelow]

end MaterialText.Directory
