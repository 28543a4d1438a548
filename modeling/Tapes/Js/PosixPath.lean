import Tapes.Js.Text

namespace Tapes.Js.Path

/-! The `path` module where the separator is a slash. -/

def slash : UInt16 := 0x2F

def dot : JsString := js "."

def dotDot : JsString := js ".."

/-- What is between the separators. Two in a row are one. -/
def segments (path : JsString) : List JsString := (path.splitOn slash).filter (· ≠ [])

/-- `..` takes back the segment before it, and stays where there is none to take back. -/
def pushSegment (allowAboveRoot : Bool) (stack : List JsString) (segment : JsString) : List JsString :=
  if segment = dot then stack
  else if segment = dotDot then
    if stack ≠ [] ∧ stack.getLast? ≠ some dotDot then stack.dropLast
    else if allowAboveRoot then stack ++ [dotDot]
    else stack
  else stack ++ [segment]

def normalizeSegments (allowAboveRoot : Bool) (path : JsString) : List JsString :=
  (segments path).foldl (pushSegment allowAboveRoot) []

def normalizeString (path : JsString) (allowAboveRoot : Bool) : JsString :=
  [slash].intercalate (normalizeSegments allowAboveRoot path)

def isAbsolute (path : JsString) : Bool := path.head? = some slash

/-- A trailing separator stays. -/
def normalize (path : JsString) : JsString :=
  if path = [] then dot
  else
    let trailing := if path.getLast? = some slash then [slash] else []
    let text := normalizeString path (!isAbsolute path)
    if isAbsolute path then
      if text = [] then [slash] else slash :: (text ++ trailing)
    else if text = [] then dot ++ trailing
    else text ++ trailing

def join (paths : List JsString) : JsString := normalize ([slash].intercalate (paths.filter (· ≠ [])))

/-- What `process.cwd()` gives. -/
structure WorkingDirectory where
  path : JsString
  absolute : isAbsolute path = true

def resolve (directory : WorkingDirectory) (path : JsString) : JsString :=
  slash :: normalizeString (if isAbsolute path then path else directory.path ++ slash :: path) false

/-- The last segment. -/
def basename (path : JsString) : JsString := (segments path).getLast?.getD []

/-- From the last dot on, unless nothing but the dot is in front of it. -/
def extname (path : JsString) : JsString :=
  let name := basename path
  let ext := (name.reverse.takeWhile (· ≠ 0x2E)).reverse
  let stem := name.length - ext.length
  if stem ≤ 1 ∨ name = dotDot then [] else 0x2E :: ext

/-! ## Segments -/

variable {path root : JsString} {stack : List JsString}

structure IsSegment (segment : JsString) : Prop where
  notEmpty : segment ≠ []
  noSlash : slash ∉ segment

structure IsName (segment : JsString) : Prop extends IsSegment segment where
  notDot : segment ≠ dot
  notDotDot : segment ≠ dotDot

theorem segments_append (path rest : JsString) :
    segments (path ++ slash :: rest) = segments path ++ segments rest := by
  rw [segments, List.splitOn_append_cons_self, List.filter_append]
  rfl

theorem segments_slash (path : JsString) : segments (slash :: path) = segments path :=
  segments_append [] path

theorem segments_trailing (path : JsString) : segments (path ++ [slash]) = segments path := by
  rw [segments_append path [], segments, segments]
  exact List.append_nil _

theorem noSlash_of_splitOn {segment : JsString} (member : segment ∈ path.splitOn slash) :
    slash ∉ segment := by
  induction path generalizing segment with
  | nil =>
      rw [List.splitOn_nil, List.mem_singleton] at member
      rw [member]
      exact List.not_mem_nil
  | cons unit rest induction =>
      rw [List.splitOn_cons_eq_if_modifyHead] at member
      split at member
      · cases member with
        | head => exact List.not_mem_nil
        | tail _ later => exact induction later
      · rename_i other
        cases split : rest.splitOn slash with
        | nil => exact absurd split (List.splitOn_ne_nil slash rest)
        | cons first others =>
            rw [split] at member induction
            cases member with
            | head =>
                rw [List.mem_cons, not_or]
                refine ⟨?_, induction List.mem_cons_self⟩
                intro same
                rw [← same] at other
                exact other (beq_self_eq_true _)
            | tail _ later => exact induction (List.mem_cons_of_mem _ later)

theorem isSegment_segments (path : JsString) : ∀ segment ∈ segments path, IsSegment segment := by
  intro segment member
  obtain ⟨inside, notEmpty⟩ := List.mem_filter.mp member
  exact ⟨by simpa using notEmpty, noSlash_of_splitOn inside⟩

theorem segments_intercalate (plain : ∀ segment ∈ stack, IsSegment segment) :
    segments ([slash].intercalate stack) = stack := by
  by_cases empty : stack = []
  · subst empty
    rfl
  · rw [segments, List.splitOn_intercalate slash (fun segment member => (plain segment member).noSlash)
      empty, List.filter_eq_self]
    intro segment member
    simpa using (plain segment member).notEmpty

/-! ## Absolute paths -/

theorem pushSegment_name {segment : JsString} (name : IsName segment) (stack : List JsString)
    (allowAboveRoot : Bool) : pushSegment allowAboveRoot stack segment = stack ++ [segment] := by
  rw [pushSegment, if_neg name.notDot, if_neg name.notDotDot]

theorem isName_pushSegment {segment : JsString} (names : ∀ name ∈ stack, IsName name)
    (plain : IsSegment segment) : ∀ name ∈ pushSegment false stack segment, IsName name := by
  intro name member
  unfold pushSegment at member
  split at member
  · exact names name member
  · rename_i notDot
    split at member
    · split at member
      · exact names name ((List.dropLast_sublist stack).mem member)
      · exact names name member
    · rename_i notDotDot
      cases List.mem_append.mp member with
      | inl before => exact names name before
      | inr last =>
          rw [List.mem_singleton.mp last]
          exact ⟨plain, notDot, notDotDot⟩

/-- Below the root nothing of a path is relative. -/
theorem isName_normalizeSegments (path : JsString) :
    ∀ name ∈ normalizeSegments false path, IsName name := by
  have all : ∀ (more stack : List JsString), (∀ segment ∈ more, IsSegment segment) →
      (∀ name ∈ stack, IsName name) →
      ∀ name ∈ more.foldl (pushSegment false) stack, IsName name := by
    intro more
    induction more with
    | nil => exact fun _ _ names => names
    | cons segment more induction =>
        intro stack plain names
        obtain ⟨first, later⟩ := List.forall_mem_cons.mp plain
        exact induction _ later (isName_pushSegment names first)
  exact all _ [] (isSegment_segments path) (by simp)

theorem foldl_pushSegment_names (names : ∀ name ∈ stack, IsName name) (before : List JsString) :
    stack.foldl (pushSegment false) before = before ++ stack := by
  induction stack generalizing before with
  | nil => exact (List.append_nil _).symm
  | cons name rest induction =>
      obtain ⟨first, later⟩ := List.forall_mem_cons.mp names
      rw [List.foldl_cons, pushSegment_name first, induction later, List.append_assoc]
      rfl

theorem segments_normalizeString (path : JsString) :
    segments (normalizeString path false) = normalizeSegments false path :=
  segments_intercalate fun name member => (isName_normalizeSegments path name member).toIsSegment

/-- An absolute path that `normalize` or `resolve` has written. -/
structure Resolved (path : JsString) : Prop where
  absolute : isAbsolute path = true
  names : ∀ name ∈ segments path, IsName name

theorem segments_normalize (absolute : isAbsolute path = true) :
    segments (normalize path) = normalizeSegments false path := by
  have notEmpty : path ≠ [] := by
    rintro rfl
    cases absolute
  have written := segments_normalizeString path
  rw [normalize, if_neg notEmpty]
  simp only [absolute, Bool.not_true, if_true]
  split
  · rename_i empty
    rw [empty] at written
    exact written
  · split
    · rw [segments_slash, segments_trailing, written]
    · rw [segments_slash, List.append_nil, written]

theorem resolved_normalize (absolute : isAbsolute path = true) : Resolved (normalize path) := by
  constructor
  · have notEmpty : path ≠ [] := by
      rintro rfl
      cases absolute
    rw [normalize, if_neg notEmpty]
    simp only [absolute, if_true]
    split
    · rfl
    · rfl
  · rw [segments_normalize absolute]
    exact isName_normalizeSegments path

theorem resolved_resolve (directory : WorkingDirectory) (path : JsString) :
    Resolved (resolve directory path) := by
  refine ⟨rfl, ?_⟩
  rw [resolve, segments_slash, segments_normalizeString]
  exact isName_normalizeSegments _

/-! ## Below a directory -/

structure Inside (root path : JsString) : Prop extends Resolved path where
  below : segments root <+: segments path

theorem Inside.of_startsWith (resolved : Resolved path) (starts : (root ++ [slash]).isPrefixOf path = true) :
    Inside root path := by
  refine ⟨resolved, ?_⟩
  obtain ⟨rest, rfl⟩ := List.isPrefixOf_iff_prefix.mp starts
  rw [List.append_assoc, List.singleton_append, segments_append]
  exact List.prefix_append _ _

theorem Inside.refl (resolved : Resolved root) : Inside root root := ⟨resolved, List.prefix_rfl⟩

theorem join_pair (absolute : isAbsolute root = true) {more : JsString} (notEmpty : more ≠ []) :
    join [root, more] = normalize (root ++ slash :: more) := by
  have written : root ≠ [] := by
    rintro rfl
    cases absolute
  have both : [root, more].filter (· ≠ []) = [root, more] := by simp [written, notEmpty]
  rw [join, both]
  simp [List.intercalate]

theorem isAbsolute_append (absolute : isAbsolute root = true) (more : JsString) :
    isAbsolute (root ++ more) = true := by
  cases root with
  | nil => cases absolute
  | cons unit rest => exact absolute

/-- Whatever is joined to a resolved path, the result is resolved. -/
theorem resolved_join (absolute : isAbsolute root = true) (more : JsString) :
    Resolved (join [root, more]) := by
  by_cases empty : more = []
  · have written : root ≠ [] := by
      rintro rfl
      cases absolute
    have one : [root, more].filter (· ≠ []) = [root] := by simp [written, empty]
    rw [join, one]
    simpa [List.intercalate] using resolved_normalize absolute
  · rw [join_pair absolute empty]
    exact resolved_normalize (isAbsolute_append absolute _)

/-- One name more is one level below. -/
theorem inside_join_name (resolved : Resolved root) {name : JsString} (isName : IsName name) :
    Inside root (join [root, name]) := by
  refine ⟨resolved_join resolved.absolute name, ?_⟩
  have single : segments name = [name] := by
    rw [segments, List.splitOn_eq_singleton isName.noSlash, List.filter_singleton]
    simp [isName.notEmpty]
  rw [join_pair resolved.absolute isName.notEmpty,
    segments_normalize (isAbsolute_append resolved.absolute _), normalizeSegments, segments_append,
    List.foldl_append, foldl_pushSegment_names resolved.names, single, List.nil_append,
    foldl_pushSegment_names (by simpa using isName)]
  exact List.prefix_append _ _

end Tapes.Js.Path
