import LeanRs.General.Fallible
import LeanRs.General.Text
import LeanRs.Toolchain.ModuleDiscovery

/-! Names of modules and paths of files: which names lead back to the path that they are made of. -/
namespace LeanRs

open Text Fallible

namespace PathBuf

theorem val_ofNat {n : Nat} (valid : n.isValidChar) : (Char.ofNat n).val.toNat = n := by
  unfold Char.ofNat
  rw [dif_pos valid]
  rfl

theorem ofNat_eq {n : Nat} {b : UInt8} (same : n = b.toNat) : UInt8.ofNat n = b := by
  rw [same, UInt8.ofNat_toNat]

theorem encode_one {b0 : UInt8} (small : b0.toNat < 128) :
    String.utf8EncodeChar (Char.ofNat b0.toNat) = [b0] := by
  unfold String.utf8EncodeChar
  rw [val_ofNat (Or.inl (by omega))]
  dsimp only
  rw [if_pos (by omega), ofNat_eq rfl]

theorem encode_two {b0 b1 : UInt8} (lead : 194 ≤ b0.toNat ∧ b0.toNat ≤ 223)
    (second : 128 ≤ b1.toNat ∧ b1.toNat ≤ 191) :
    String.utf8EncodeChar (Char.ofNat ((b0.toNat - 192) * 64 + (b1.toNat - 128))) = [b0, b1] := by
  unfold String.utf8EncodeChar
  rw [val_ofNat (Or.inl (by omega))]
  dsimp only
  rw [if_neg (by omega), if_pos (by omega), List.cons_eq_cons, List.cons_eq_cons]
  exact ⟨ofNat_eq (by omega), ofNat_eq (by omega), rfl⟩

theorem encode_three {b0 b1 b2 : UInt8} (lead : 224 ≤ b0.toNat ∧ b0.toNat ≤ 239)
    (second : secondOfThree b0 b1 = true) (third : 128 ≤ b2.toNat ∧ b2.toNat ≤ 191) :
    String.utf8EncodeChar (Char.ofNat ((b0.toNat - 224) * 4096 + (b1.toNat - 128) * 64 +
      (b2.toNat - 128))) = [b0, b1, b2] := by
  have bounds := secondOfThree_bounds second
  unfold String.utf8EncodeChar
  rw [val_ofNat (show _ ∨ _ by omega)]
  dsimp only
  rw [if_neg (by omega), if_neg (by omega), if_pos (by omega), List.cons_eq_cons,
    List.cons_eq_cons, List.cons_eq_cons]
  exact ⟨ofNat_eq (by omega), ofNat_eq (by omega), ofNat_eq (by omega), rfl⟩

theorem encode_four {b0 b1 b2 b3 : UInt8} (lead : 240 ≤ b0.toNat ∧ b0.toNat ≤ 244)
    (second : secondOfFour b0 b1 = true) (third : 128 ≤ b2.toNat ∧ b2.toNat ≤ 191)
    (fourth : 128 ≤ b3.toNat ∧ b3.toNat ≤ 191) :
    String.utf8EncodeChar (Char.ofNat ((b0.toNat - 240) * 262144 + (b1.toNat - 128) * 4096 +
      (b2.toNat - 128) * 64 + (b3.toNat - 128))) = [b0, b1, b2, b3] := by
  have bounds := secondOfFour_bounds second
  unfold String.utf8EncodeChar
  rw [val_ofNat (show _ ∨ _ by omega)]
  dsimp only
  rw [if_neg (by omega), if_neg (by omega), if_neg (by omega), List.cons_eq_cons,
    List.cons_eq_cons, List.cons_eq_cons, List.cons_eq_cons]
  exact ⟨ofNat_eq (by omega), ofNat_eq (by omega), ofNat_eq (by omega), ofNat_eq (by omega), rfl⟩

theorem encode_lossyChars {s : List UInt8} (whole : replacement ∉ lossyChars s) :
    encode (lossyChars s) = s := by
  have later {c : Char} {cs : List Char} (whole : replacement ∉ c :: cs) : replacement ∉ cs :=
    fun member => whole (List.mem_cons_of_mem c member)
  have replaced {cs : List Char} {P : Prop} (whole : replacement ∉ replacement :: cs) : P :=
    absurd List.mem_cons_self whole
  fun_induction lossyChars s with
  | case1 => rfl
  | case2 b0 rest small ih =>
    rw [encode_cons, encode_one (UInt8.lt_iff_toNat_lt.mp small), ih (later whole)]
    rfl
  | case3 b0 high lead b1 rest1 second ih =>
    have bounds := lead_range lead
    rw [encode_cons, encode_two bounds (continuation_bounds second), ih (later whole)]
    rfl
  | case6 b0 high notTwo lead b1 second b2 rest2 third ih =>
    have bounds := lead_range lead
    rw [encode_cons, encode_three bounds second (continuation_bounds third), ih (later whole)]
    rfl
  | case11 b0 high notTwo notThree lead b1 second b2 third b3 rest3 fourth ih =>
    have bounds := lead_range lead
    rw [encode_cons, encode_four bounds second (continuation_bounds third)
      (continuation_bounds fourth), ih (later whole)]
    rfl
  | _ => exact replaced whole

end PathBuf

theorem ofString_ofList (cs : List Char) : FileName.ofString (String.ofList cs) = encode cs := by
  rw [FileName.ofString, PathBuf.bytes_ofString, String.toList_ofList]
  rfl

theorem dot_mem_encode {cs : List Char} (member : 46 ∈ encode cs) : '.' ∈ cs :=
  mem_of_mem_encode member (by decide) (by decide)

theorem mem_encode_dot {cs : List Char} (member : '.' ∈ cs) : 46 ∈ encode cs :=
  List.mem_flatMap.mpr ⟨'.', member, by decide⟩

theorem not_mem_splitOn {A : Type} [BEq A] [LawfulBEq A] {mark : A} {xs part : List A}
    (member : part ∈ xs.splitOn mark) : mark ∉ part := by
  induction xs generalizing part with
  | nil =>
    rw [List.splitOn_nil, List.mem_singleton] at member
    rw [member]
    exact List.not_mem_nil
  | cons x xs ih =>
    rw [List.splitOn_cons_eq_if_modifyHead] at member
    split at member
    · rcases List.mem_cons.mp member with rfl | later
      · exact List.not_mem_nil
      · exact ih later
    · rename_i other
      cases parts : xs.splitOn mark with
      | nil => exact absurd parts (List.splitOn_ne_nil mark xs)
      | cons first rest =>
        rw [parts, List.modifyHead_cons] at member
        rcases List.mem_cons.mp member with rfl | later
        · have apart := ih (parts ▸ List.mem_cons_self)
          refine fun inside => ?_
          rcases List.mem_cons.mp inside with rfl | inside
          · exact other (beq_self_eq_true _)
          · exact apart inside
        · exact ih (parts ▸ List.mem_cons_of_mem first later)

namespace FileName

theorem extension?_of_plain {name : FileName} (plain : 46 ∉ name) : name.extension? = none := by
  have all : ∀ b ∈ name.reverse, (b != 46) = true := by
    intro b member
    refine bne_iff_ne.mpr ?_
    rintro rfl
    exact plain (List.mem_reverse.mp member)
  have nothing : name.reverse.dropWhile (· != 46) = [] := List.dropWhile_eq_nil_iff.mpr all
  rw [extension?, nothing]
  rfl

theorem setExtension_of_plain {name : FileName} (plain : 46 ∉ name) (extension : FileName) :
    name.setExtension extension = name ++ 46 :: extension := by
  rw [setExtension, extension?_of_plain plain]

end FileName

theorem leanExtension_eq : leanExtension = encode "lean".toList := PathBuf.bytes_ofString "lean"

theorem encode_dotLean (cs : List Char) :
    encode (cs ++ ".lean".toList) = encode cs ++ 46 :: leanExtension := by
  have dot : ".lean".toList = '.' :: "lean".toList := by decide
  have byte : String.utf8EncodeChar '.' = [46] := by decide
  rw [dot, encode_append, encode_cons, byte, leanExtension_eq]
  rfl

/-- No name on the path has a dot but for the one before the extension. -/
def Undotted (path : RelPath) : Prop :=
  ∃ dirs stem, path = dirs ++ [stem ++ 46 :: leanExtension] ∧ 46 ∉ stem ∧ ∀ dir ∈ dirs, 46 ∉ dir

theorem moduleToDir_eq (module : String) :
    moduleToDir module = (module.toList.splitOn '.').map encode :=
  List.map_congr_left fun part _ => ofString_ofList part

theorem moduleToDir_plain (module : String) : ∀ name ∈ moduleToDir module, 46 ∉ name := by
  intro name member
  rw [moduleToDir_eq] at member
  obtain ⟨part, inside, rfl⟩ := List.mem_map.mp member
  exact fun dot => not_mem_splitOn inside (dot_mem_encode dot)

theorem moduleToDir_ne_nil (module : String) : moduleToDir module ≠ [] := fun none =>
  List.splitOn_ne_nil '.' module.toList (List.map_eq_nil_iff.mp none)

theorem moduleToFile_of {module : String} {dirs : RelPath} {last : FileName}
    (parts : moduleToDir module = dirs ++ [last]) :
    moduleToFile module = dirs ++ [last ++ 46 :: leanExtension] := by
  have plain : 46 ∉ last := moduleToDir_plain module last (by rw [parts]; simp)
  rw [moduleToFile, parts, List.dropLast_concat, List.getLast?_concat, Option.map_some,
    FileName.setExtension_of_plain plain]
  rfl

theorem moduleToDir_concat (module : String) :
    ∃ dirs last, moduleToDir module = dirs ++ [last] :=
  ⟨_, _, (List.dropLast_append_getLast (moduleToDir_ne_nil module)).symm⟩

theorem moduleToFile_undotted (module : String) : Undotted (moduleToFile module) := by
  obtain ⟨dirs, last, parts⟩ := moduleToDir_concat module
  have plain := moduleToDir_plain module
  rw [parts] at plain
  exact ⟨dirs, last, moduleToFile_of parts, plain last (by simp),
    fun dir member => plain dir (List.mem_append_left _ member)⟩

theorem stem_dotLean (cs : List Char) : stem (cs ++ ".lean".toList) = cs := by
  have ending : ".lean".toList.isSuffixOf (cs ++ ".lean".toList) = true :=
    List.isSuffixOf_iff_suffix.mpr (List.suffix_append _ _)
  rw [stem, stripSuffix?, if_pos ending, Option.getD_some, List.length_append,
    Nat.add_sub_cancel, List.take_left]

theorem stem_cases (text : List Char) : text = stem text ++ ".lean".toList ∨ text = stem text := by
  unfold stem stripSuffix?
  split
  · rename_i ending
    obtain ⟨front, rfl⟩ := List.isSuffixOf_iff_suffix.mp ending
    rw [Option.getD_some, List.length_append, Nat.add_sub_cancel, List.take_left]
    exact Or.inl rfl
  · exact Or.inr rfl

theorem moduleFromPath_concat (dirs : RelPath) (last : FileName) :
    moduleFromPath (dirs ++ [last]) = String.ofList (['.'].intercalate
      (dirs.map PathBuf.lossyChars ++ [stem (PathBuf.lossyChars last)])) := by
  simp only [moduleFromPath, List.map_append, List.map_cons, List.map_nil, List.dropLast_concat,
    List.getLast?_concat, Option.map_some, Option.toList_some]

theorem moduleFromPath_moduleToFile (module : String) :
    moduleFromPath (moduleToFile module) = module := by
  obtain ⟨dirs, last, parts⟩ := moduleToDir_concat module
  have encoded := moduleToDir_eq module
  rw [parts] at encoded
  obtain ⟨ds, rest, whole, rfl, tail⟩ := List.map_eq_append_iff.mp encoded.symm
  obtain ⟨l, rfl, rfl⟩ := List.map_eq_singleton_iff.mp tail
  have read (cs : List Char) : PathBuf.lossyChars (encode cs) = cs := PathBuf.lossyChars_utf8 cs
  have dirs : (ds.map encode).map PathBuf.lossyChars = ds := by
    rw [List.map_map]
    exact (List.map_congr_left fun cs _ => read cs).trans (List.map_id ds)
  rw [moduleToFile_of parts, moduleFromPath_concat, dirs, ← encode_dotLean, read, stem_dotLean,
    ← whole, List.intercalate_splitOn, String.ofList_toList]

theorem mem_moduleFromPath {dirs : RelPath} {last : FileName} {part : List Char}
    (member : part ∈ dirs.map PathBuf.lossyChars ++ [stem (PathBuf.lossyChars last)]) :
    part ⊆ (moduleFromPath (dirs ++ [last])).toList := by
  rw [moduleFromPath_concat, String.toList_ofList]
  exact (infix_intercalate member).subset

/-- The name that is made of a path leads back to it, if the path has no other dot and no character
had to be replaced in its name. -/
theorem moduleToFile_moduleFromPath {path : RelPath} (undotted : Undotted path)
    (whole : PathBuf.replacement ∉ (moduleFromPath path).toList) :
    moduleToFile (moduleFromPath path) = path := by
  obtain ⟨dirs, last, rfl, plain, plainDirs⟩ := undotted
  have dirsWhole : ∀ dir ∈ dirs, encode (PathBuf.lossyChars dir) = dir := fun dir member =>
    PathBuf.encode_lossyChars fun inside => whole (mem_moduleFromPath
      (List.mem_append_left _ (List.mem_map_of_mem member)) inside)
  have textWhole : encode (PathBuf.lossyChars (last ++ 46 :: leanExtension)) =
      last ++ 46 :: leanExtension := by
    refine PathBuf.encode_lossyChars fun inside => whole ?_
    refine mem_moduleFromPath (List.mem_append_right _ List.mem_cons_self) ?_
    rcases stem_cases (PathBuf.lossyChars (last ++ 46 :: leanExtension)) with cut | same
    · rw [cut] at inside
      rcases List.mem_append.mp inside with front | ending
      · exact front
      · exact absurd ending (by decide)
    · rwa [← same]
  obtain ⟨first, c, second, split, encoded, -⟩ := encode_split textWhole (by decide)
  have text : PathBuf.lossyChars (last ++ 46 :: leanExtension) = first ++ ".lean".toList := by
    apply encode_injective
    rw [textWhole, encode_dotLean, encoded]
  have noDot : ∀ part ∈ dirs.map PathBuf.lossyChars ++ [first], '.' ∉ part := by
    intro part member dot
    rcases List.mem_append.mp member with among | same
    · obtain ⟨dir, inside, rfl⟩ := List.mem_map.mp among
      exact plainDirs dir inside (dirsWhole dir inside ▸ mem_encode_dot dot)
    · rw [List.mem_singleton.mp same] at dot
      exact plain (encoded ▸ mem_encode_dot dot)
  have parts : moduleToDir (moduleFromPath (dirs ++ [last ++ 46 :: leanExtension])) =
      dirs ++ [last] := by
    have back : (dirs.map PathBuf.lossyChars).map encode = dirs := by
      rw [List.map_map]
      exact (List.map_congr_left dirsWhole).trans (List.map_id dirs)
    rw [moduleToDir_eq, moduleFromPath_concat, String.toList_ofList, text, stem_dotLean,
      List.splitOn_intercalate '.' noDot (by simp), List.map_append, back, List.map_cons,
      List.map_nil, encoded]
  exact moduleToFile_of parts

/-- The classes of characters with what the standard library says of the character that stands for
what is no text. -/
structure UnicodeClasses extends CharClasses where
  replacement_isAlphanumeric : toCharClasses.isAlphanumeric PathBuf.replacement = false

namespace UnicodeClasses

def ascii : UnicodeClasses := ⟨CharClasses.ascii, by decide⟩

variable (classes : UnicodeClasses)

theorem replacement_outside : classes.startsComponent PathBuf.replacement = false ∧
    classes.continuesComponent PathBuf.replacement = false := by
  have both := classes.replacement_isAlphanumeric
  have alphabetic : classes.isAlphabetic PathBuf.replacement = false :=
    (Bool.or_eq_false_iff.mp both).1
  unfold CharClasses.startsComponent CharClasses.continuesComponent
  rw [alphabetic, both]
  decide

theorem replacement_not_mem {module : String}
    (valid : classes.checkModuleName module = .ok ()) : PathBuf.replacement ∉ module.toList := by
  obtain ⟨start, continues⟩ := classes.replacement_outside
  have components : ∀ {parts : List (List Char)},
      classes.checkComponents module parts = .ok () →
        ∀ part ∈ parts, PathBuf.replacement ∉ part := by
    intro parts valid
    induction parts with
    | nil => exact fun _ member => absurd member List.not_mem_nil
    | cons part parts ih =>
      cases part with
      | nil => cases valid
      | cons first chars =>
        unfold CharClasses.checkComponents at valid
        split at valid
        · cases valid
        · rename_i starts
          split at valid
          · cases valid
          · rename_i rest
            intro part member inside
            rcases List.mem_cons.mp member with rfl | later
            · rcases List.mem_cons.mp inside with rfl | among
              · rw [start] at starts
                exact starts rfl
              · exact rest (List.any_eq_true.mpr ⟨_, among, by rw [continues]; rfl⟩)
            · exact ih valid part later inside
  unfold CharClasses.checkModuleName at valid
  split at valid
  · cases valid
  · intro member
    have joined : ['.'].intercalate (module.toList.splitOn '.') = module.toList :=
      List.intercalate_splitOn '.'
    rw [← joined] at member
    rcases mem_joined member with dot | ⟨part, inside, found⟩
    · exact absurd dot (by decide)
    · exact components valid part inside found

end UnicodeClasses

end LeanRs
