import Mathlib.Data.List.Infix
import Mathlib.Data.List.Induction
import ImportAtlas.Proofs.Resolution
import ImportAtlas.Proofs.Writing
/-!
# Looking upwards

A working directory is known by the path of its location, and everything above it is a
directory under the path of its own location (`locate_above`). So what is looked for from
there upwards is looked for at the starts of the location, the longest first
(`ancestors_path`).
-/

namespace ImportAtlas

/-! ## Paths of locations -/

namespace Location

variable {at_ above d : Location} {n : String}

/-- A location and those above it, nearest first. -/
def upwards (at_ : Location) : List Location := at_.inits.reverse

@[simp] theorem mem_upwards : above ∈ upwards at_ ↔ above <+: at_ := by simp [upwards]

theorem upwards_nil : upwards [] = [[]] := rfl

theorem upwards_append (at_ : Location) (n : String) : upwards (at_ ++ [n]) = (at_ ++ [n]) :: upwards at_ := by
  simp [upwards, List.inits_append]

/-- What is found upwards has what is looked for, and nothing on the way there has. -/
theorem find?_upwards_eq_some {P : Location → Bool} :
    (upwards at_).find? P = some d ↔
      d <+: at_ ∧ P d = true ∧ ∀ below, below <+: at_ → d <+: below → below ≠ d → P below = false := by
  -- A location is looked at before those above it, which are all above the one without the last name.
  induction at_ using List.reverseRecOn with
  | nil =>
    rw [upwards_nil, List.find?_singleton, List.prefix_nil]
    simp only [Option.ite_none_right_eq_some, Option.some.injEq]
    constructor
    · rintro ⟨h, rfl⟩
      exact ⟨rfl, h, fun below hb _ hne => absurd (List.prefix_nil.1 hb) hne⟩
    · rintro ⟨rfl, h, -⟩
      exact ⟨h, rfl⟩
  | append_singleton at_ n ih =>
    rw [upwards_append, List.find?_cons]
    cases hP : P (at_ ++ [n]) with
    | true =>
      rw [Option.some.injEq]
      constructor
      · rintro rfl
        exact ⟨List.prefix_refl _, hP, fun below hb hd hne => absurd (hb.eq_of_length_le hd.length_le) hne⟩
      · rintro ⟨hd, -, hnone⟩
        by_contra hne
        rw [hnone _ (List.prefix_refl _) hd hne] at hP
        cases hP
    | false =>
      refine ih.trans ⟨?_, ?_⟩
      · rintro ⟨hd, h, hnone⟩
        refine ⟨hd.trans (List.prefix_append _ _), h, fun below hb => ?_⟩
        rcases List.prefix_concat_iff.1 hb with rfl | hb
        · exact fun _ _ => hP
        · exact hnone below hb
      · rintro ⟨hd, h, hnone⟩
        rcases List.prefix_concat_iff.1 hd with rfl | hd
        · cases hP.symm.trans h
        · exact ⟨hd, h, fun below hb => hnone below (hb.trans (List.prefix_append _ _))⟩

theorem toList_path (at_ : Location) : (path at_).text.toList = '/' :: Text.joinWith '/' (at_.map String.toList) := by
  rw [path, String.toList_append, String.toList_intercalate, Text.joinWith_eq_intercalate]
  rfl

theorem path_eq_ofList (at_ : Location) :
    path at_ = ⟨String.ofList ('/' :: Text.joinWith '/' (at_.map String.toList))⟩ := by
  rw [← toList_path, String.ofList_toList]

theorem splitOn_names (hne : at_ ≠ []) (h : ∀ n ∈ at_, Path.IsName n) :
    Text.splitOn '/' (Text.joinWith '/' (at_.map String.toList)) = at_.map String.toList := by
  refine Text.splitOn_joinWith '/' (by simpa using hne) fun part hp => ?_
  obtain ⟨n, hn, rfl⟩ := List.mem_map.1 hp
  exact (h n hn).slash

/-- Only the path of the root directory ends in a slash. -/
theorem getLast?_path (hne : at_ ≠ []) (h : ∀ n ∈ at_, Path.IsName n) : (path at_).text.toList.getLast? ≠ some '/' := by
  obtain ⟨above, n, rfl⟩ := (List.eq_nil_or_concat' at_).resolve_left hne
  have htext : (path (above ++ [n])).text.toList = (above.map String.toList).flatMap ('/' :: ·) ++ '/' :: n.toList := by
    rw [toList_path]
    cases above <;> simp [Text.joinWith_eq_flatMap]
  rw [htext]
  have hn : Path.Component.IsStep (.name n) := h n (by simp)
  simpa [Path.Component.part] using
    Path.getLast?_append_part hn ((above.map String.toList).flatMap ('/' :: ·) ++ ['/'])

theorem isAbsolute_path (at_ : Location) : (path at_).isAbsolute = true := by
  rw [Path.isAbsolute, toList_path]
  rfl

/-- A path of names tells the location. -/
theorem path_inj (h : ∀ n ∈ at_, Path.IsName n) (habove : ∀ n ∈ above, Path.IsName n) :
    path above = path at_ ↔ above = at_ := by
  refine ⟨fun he => ?_, congrArg path⟩
  have hc := congrArg Path.components he
  rw [components_path h, components_path habove, List.cons.injEq] at hc
  exact List.map_injective_iff.2 (fun _ _ => Path.Component.name.inj) hc.2

theorem textOf_names (names : Location) :
    Path.textOf (names.map .name) = Text.joinWith '/' (names.map String.toList) := by
  rw [Path.textOf, List.map_map]
  rfl

/-- Names joined to the path of a location lead on from there. -/
theorem path_join (h : ∀ n ∈ at_, Path.IsName n) (hne : d ≠ []) (hd : ∀ n ∈ d, Path.IsName n) :
    (path at_).join (String.ofList (Text.joinWith '/' (d.map String.toList))) = path (at_ ++ d) := by
  have hrelative : ¬ (Path.mk (String.ofList (Text.joinWith '/' (d.map String.toList)))).isAbsolute = true := by
    have hhead : (Path.textOf (d.map .name)).head? ≠ some '/' := Path.head?_textOf (by simpa using hne) (isStep_name hd)
    rw [textOf_names] at hhead
    simpa [Path.isAbsolute] using hhead
  rw [Path.join, if_neg hrelative]
  by_cases hroot : at_ = []
  · subst hroot
    rw [path_eq_ofList, path_eq_ofList]
    simp [Text.joinWith]
  · have hlast := getLast?_path hroot h
    split
    · next hnone => simp [toList_path] at hnone
    · next hslash => exact absurd hslash hlast
    · rw [path_eq_ofList (at_ ++ d), List.map_append,
        Text.joinWith_append '/' (by simpa using hroot) (by simpa using hne)]
      simp [← String.toList_inj, toList_path]

theorem path_append (h : ∀ n ∈ at_, Path.IsName n) (hn : Path.IsName n) : path (at_ ++ [n]) = (path at_).join n := by
  have hjoin := path_join (d := [n]) h (by simp) (List.forall_mem_singleton.2 hn)
  rw [← hjoin]
  simp [Text.joinWith]

/-! ## Parents -/

theorem stem_path (at_ : Location) : (path at_).stem = 1 := by
  rw [Path.stem, isAbsolute_path]
  rfl

theorem dropWhile_isIdle (h : ∀ n ∈ at_, Path.IsName n) :
    (at_.map String.toList).dropWhile Path.isIdle = at_.map String.toList := by
  cases at_ with
  | nil => rfl
  | cons n at_ =>
    have hbusy : Path.isIdle n.toList = false := Path.part_busy (c := .name n) (h n List.mem_cons_self)
    rw [List.map_cons, List.dropWhile_cons_of_neg (by simp [hbusy])]

theorem partsFromEnd_path (h : ∀ n ∈ at_, Path.IsName n) : (path at_).partsFromEnd = at_.reverse.map String.toList := by
  rw [Path.partsFromEnd, stem_path, toList_path, List.drop_succ_cons, List.drop_zero]
  by_cases hne : at_ = []
  · subst hne
    rfl
  rw [splitOn_names hne h, ← List.map_reverse, dropWhile_isIdle (by simpa using h)]

theorem parent?_path_append (h : ∀ n ∈ at_, Path.IsName n) (hn : Path.IsName n) :
    (path (at_ ++ [n])).parent? = some (path at_) := by
  have hall : ∀ m ∈ at_ ++ [n], Path.IsName m := List.forall_mem_append.2 ⟨h, List.forall_mem_singleton.2 hn⟩
  have hparts : (path (at_ ++ [n])).partsFromEnd = n.toList :: at_.reverse.map String.toList := by
    rw [partsFromEnd_path hall, List.reverse_append]
    rfl
  rw [Path.parent?, hparts]
  dsimp only
  rw [dropWhile_isIdle (by simpa using h), Path.ofPartsFromEnd, stem_path, toList_path, ← List.map_reverse,
    List.reverse_reverse, path_eq_ofList at_]
  rfl

theorem parentsUpTo_path (h : ∀ n ∈ at_, Path.IsName n) {k : Nat} (hk : at_.length ≤ k) :
    path at_ :: Path.parentsUpTo k (path at_) = (upwards at_).map path := by
  induction at_ using List.reverseRecOn generalizing k with
  | nil =>
    cases k with
    | zero => rfl
    | succ k =>
      have hroot : (path []).parent? = none := by decide
      rw [Path.parentsUpTo, hroot]
      rfl
  | append_singleton at_ n ih =>
    rw [List.forall_mem_append, List.forall_mem_singleton] at h
    rw [List.length_append, List.length_singleton] at hk
    obtain ⟨k, rfl⟩ : ∃ j, k = j + 1 := ⟨k - 1, by omega⟩
    rw [Path.parentsUpTo, parent?_path_append h.1 h.2, upwards_append, List.map_cons]
    dsimp only
    rw [ih h.1 (by omega)]

/-- Above the path of a location are the paths of the locations above it. -/
theorem ancestors_path (h : ∀ n ∈ at_, Path.IsName n) : (path at_).ancestors = (upwards at_).map path := by
  rw [Path.ancestors]
  refine parentsUpTo_path h ?_
  rw [components_path h, List.length_cons, List.length_map]
  omega

end Location

/-! ## Directories above a place -/

namespace Snapshot

variable {s : Snapshot} {at_ above : Location} {n : String}

/-- Everything above a location is a directory. -/
def Entered (s : Snapshot) (at_ : Location) : Prop :=
  ∀ above, above <+: at_ → above ≠ at_ → s.entry? above = some .directory

theorem entered_nil : s.Entered [] := fun _ habove hne => absurd (List.prefix_nil.1 habove) hne

theorem Entered.mono (h : s.Entered at_) (habove : above <+: at_) : s.Entered above := by
  intro q hq hne
  refine h q (hq.trans habove) fun e => hne ?_
  exact hq.eq_of_length_le (e ▸ habove.length_le)

/-- A file or a directory is at a location. -/
def Stands (s : Snapshot) (at_ : Location) : Prop := ∃ e, s.entry? at_ = some e ∧ ∀ target, e ≠ .link target

theorem stands_directory (h : s.entry? at_ = some .directory) : s.Stands at_ := ⟨_, h, nofun⟩

/-- No link is on the way to a place below directories. -/
theorem Entered.stands (h : s.Entered at_) (hat : s.Stands at_) (habove : above <+: at_) : s.Stands above := by
  by_cases he : above = at_
  · exact he ▸ hat
  · exact stands_directory (h above habove he)

theorem Entered.append (h : s.Entered at_) (hdir : s.entry? at_ = some .directory) (n : String) :
    s.Entered (at_ ++ [n]) := by
  intro q hq hne
  rcases List.prefix_concat_iff.1 hq with rfl | hq
  · exact absurd rfl hne
  · by_cases he : q = at_
    · rw [he, hdir]
    · exact h q hq he

/-- Where a walk comes to stand. -/
def Place.location : Place → Location
  | .existing at_ | .vacant at_ => at_

/-- A walk stands below directories only. -/
theorem Walks.entered {steps : List String} {place : Place} (h : s.Walks at_ steps place) (hat : s.Entered at_) :
    s.Entered place.location := by
  induction h with
  | here => exact hat
  | free hdir _ _ _ => exact hat.append hdir _
  | stay _ _ ih => exact ih hat
  | up _ _ ih => exact ih (hat.mono (List.dropLast_prefix _))
  | name hdir _ _ _ _ _ ih => exact ih (hat.append hdir _)
  | link _ _ _ _ _ ih =>
    refine ih ?_
    split
    · exact entered_nil
    · exact hat

/-- A walk by names through directories comes to what stands at the end of them. -/
theorem walk_names {follow : Location → List String → Except ReadError Place} (names : List String) (at_ : Location)
    (hnames : ∀ n ∈ names, Path.IsName n)
    (hentered : s.Entered (at_ ++ names)) (hstands : s.Stands (at_ ++ names)) :
    s.walk follow at_ names = .ok (.existing (at_ ++ names)) := by
  induction names generalizing at_ with
  | nil =>
    rw [List.append_nil]
    rfl
  | cons n names ih =>
    have hn := hnames n List.mem_cons_self
    have hhere : s.entry? at_ = some .directory := hentered at_ (List.prefix_append _ _) (by simp)
    rw [List.append_cons] at hentered hstands ⊢
    have hrest := ih (at_ ++ [n]) (fun m hm => hnames m (List.mem_cons_of_mem _ hm)) hentered hstands
    obtain ⟨e, he, hlink⟩ := hentered.stands hstands (List.prefix_append (at_ ++ [n]) names)
    rw [walk_name hhere hn.dot hn.dots, he]
    cases e with
    | link target => exact absurd rfl (hlink target)
    | file _ => exact hrest
    | directory => exact hrest

theorem stepsOf_path (hne : at_ ≠ []) (h : ∀ n ∈ at_, Path.IsName n) : stepsOf (Location.path at_).text = at_ := by
  have hnames : (at_.map String.toList).filter (· ≠ []) = at_.map String.toList := by
    refine List.filter_eq_self.2 fun part hp => ?_
    obtain ⟨n, hn, rfl⟩ := List.mem_map.1 hp
    simpa using (h n hn).empty
  rw [stepsOf, if_neg (Location.getLast?_path hne h), Location.toList_path, Text.splitOn, if_pos rfl,
    Location.splitOn_names hne h, List.filter_cons_of_neg (by simp), hnames]
  simp [Function.comp_def]

theorem walkLinks_names (links : Nat) (h : ∀ n ∈ at_, Path.IsName n) (hentered : s.Entered at_)
    (hstands : s.Stands at_) : s.walkLinks links [] at_ = .ok (.existing at_) := by
  cases links <;> exact walk_names at_ [] h hentered hstands

/-- What stands below directories is found under the path of its location. -/
theorem locate_path (h : ∀ n ∈ at_, Path.IsName n) (hentered : s.Entered at_) (hstands : s.Stands at_) :
    s.locate (Location.path at_) = .ok at_ := by
  rw [locate, place, if_pos (Location.isAbsolute_path at_)]
  by_cases hne : at_ = []
  · subst hne
    rfl
  · rw [stepsOf_path hne h, walkLinks_names maxLinks h hentered hstands]

theorem locate_entered {p : Path} (h : s.locate p = .ok at_) : s.Entered at_ := by
  exact (s.walks_of_locate h).entered entered_nil

theorem entry?_of_isDirectory {p : Path} (h : s.locate p = .ok at_) (hdir : s.isDirectory p = true) :
    s.entry? at_ = some .directory := by
  unfold isDirectory find? at hdir
  rw [h] at hdir
  dsimp only at hdir
  split at hdir
  · assumption
  · cases hdir

/-- What is above a directory that a path leads to is found under the path of its own
location. -/
theorem locate_above {p : Path} (h : s.locate p = .ok at_) (hdir : s.isDirectory p = true) (habove : above <+: at_) :
    s.locate (Location.path above) = .ok above := by
  have hentered := locate_entered h
  have hstands : s.Stands at_ := stands_directory (entry?_of_isDirectory h hdir)
  exact locate_path (fun n hn => s.locate_named h n (habove.subset hn)) (hentered.mono habove)
    (hentered.stands hstands habove)

end Snapshot

end ImportAtlas
