import Mathlib.Data.List.TakeWhile
import SnapshotEndpoint.Proofs.Http.Answers

/-!
Which of the listed paths a client can ask for. As a target a path stands for itself exactly
if it is short enough and holds path characters alone; what registration lets through beyond
that is read as a shorter path, or not at all.
-/
namespace SnapshotEndpoint

namespace Uri

/-- What stands before the query and the fragment. -/
def pathPart (cs : List Char) : List Char := (dropFragment cs).takeWhile (· != '?')

/-- A text that is a path and nothing else when it is read as a target. -/
def IsPath (text : String) : Prop :=
  text.utf8ByteSize ≤ sizeLimit ∧ ∀ c ∈ text.toList, isPathChar c = true

theorem path_char_ne {c other : Char} (legal : isPathChar c = true)
    (illegal : isPathChar other = false) : (c != other) = true := by
  rw [bne_iff_ne]
  rintro rfl
  rw [legal] at illegal
  cases illegal

theorem drop_fragment_of_path_chars {cs : List Char} (legal : ∀ c ∈ cs, isPathChar c = true) :
    dropFragment cs = cs :=
  List.takeWhile_eq_self_iff.mpr fun c member => path_char_ne (legal c member) rfl

theorem path_part_of_path_chars {cs : List Char} (legal : ∀ c ∈ cs, isPathChar c = true) :
    pathPart cs = cs := by
  rw [pathPart, drop_fragment_of_path_chars legal]
  exact List.takeWhile_eq_self_iff.mpr fun c member => path_char_ne (legal c member) rfl

theorem path_part_slash (rest : List Char) : ∃ more, pathPart ('/' :: rest) = '/' :: more :=
  ⟨((dropFragment rest).takeWhile (· != '?')), rfl⟩

theorem path_of_path_and_query {rest : List Char} {p : PathAndQuery}
    (read : PathAndQuery.ofChars ('/' :: rest) = some p) :
    p.path = String.ofList (pathPart ('/' :: rest)) ∧
      ∀ c ∈ pathPart ('/' :: rest), isPathChar c = true := by
  obtain ⟨more, part⟩ := path_part_slash rest
  unfold PathAndQuery.ofChars at read
  dsimp only at read
  rw [← pathPart, part] at read
  rw [part]
  split at read
  · split at read
    · rename_i legal
      cases read
      exact ⟨rfl, List.all_eq_true.mp legal⟩
    · cases read
  · split at read
    · rename_i legal
      cases read
      rw [Bool.and_eq_true] at legal
      exact ⟨rfl, List.all_eq_true.mp legal.1⟩
    · cases read

theorem path_and_query_of_path_chars {rest : List Char}
    (legal : ∀ c ∈ '/' :: rest, isPathChar c = true) :
    PathAndQuery.ofChars ('/' :: rest) = some ⟨String.ofList ('/' :: rest), none⟩ := by
  have part := path_part_of_path_chars legal
  rw [pathPart, drop_fragment_of_path_chars legal] at part
  have noQuery : ('/' :: rest).dropWhile (· != '?') = [] :=
    List.dropWhile_eq_nil_iff.mpr fun c member => path_char_ne (legal c member) rfl
  simp only [PathAndQuery.ofChars, drop_fragment_of_path_chars legal, part, noQuery,
    List.all_eq_true.mpr legal, List.isEmpty_cons, Bool.false_eq_true, ↓reduceIte]

theorem of_chars_slash {c : Char} {rest : List Char} : ofChars ('/' :: c :: rest) =
    (PathAndQuery.ofChars ('/' :: c :: rest)).map fun p => ⟨none, none, p.path, p.query⟩ := by
  simp [ofChars]

section Rooted

variable {text : String} {c : Char} {rest : List Char}

/-- A path that is a target by itself is read as itself. -/
theorem parse_of_is_path (rooted : text.toList = '/' :: c :: rest) (path : IsPath text) :
    parse? text = some ⟨none, none, text, none⟩ := by
  obtain ⟨short, legal⟩ := path
  rw [rooted] at legal
  rw [parse?, if_neg (by omega), rooted, of_chars_slash, path_and_query_of_path_chars legal,
    ← rooted, String.ofList_toList]
  rfl

/-- A rooted text that is read at all is read as its path part. -/
theorem path_of_parse (rooted : text.toList = '/' :: c :: rest) {uri : Uri}
    (parsed : parse? text = some uri) :
    uri.path = String.ofList (pathPart text.toList) ∧ text.utf8ByteSize ≤ sizeLimit ∧
      ∀ c ∈ pathPart text.toList, isPathChar c = true := by
  unfold parse? at parsed
  split at parsed
  · cases parsed
  · rename_i short
    rw [rooted, of_chars_slash] at parsed
    obtain ⟨p, read, rfl⟩ := Option.map_eq_some_iff.mp parsed
    obtain ⟨path, legal⟩ := path_of_path_and_query read
    rw [rooted]
    exact ⟨path, by omega, legal⟩

theorem is_path_iff (rooted : text.toList = '/' :: c :: rest) :
    IsPath text ↔ ∃ uri, parse? text = some uri ∧ uri.path = text := by
  constructor
  · intro path
    exact ⟨_, parse_of_is_path rooted path, rfl⟩
  · rintro ⟨uri, parsed, same⟩
    obtain ⟨path, short, legal⟩ := path_of_parse rooted parsed
    have whole : pathPart text.toList = text.toList := by
      rw [← String.toList_ofList (l := pathPart text.toList), ← path, same]
    rw [whole] at legal
    exact ⟨short, legal⟩

end Rooted

end Uri

/-- A plain path that is not the root goes on behind its slash. -/
theorem rooted_of_plain {path : String} (plain : isPlainPath path = true)
    (unreserved : isReservedPath path = false) :
    ∃ c rest, path.toList = '/' :: c :: rest := by
  unfold isPlainPath at plain
  split at plain
  · rename_i rest chars
    cases rest with
    | nil =>
      have root : path = rootPath := by
        rw [← String.ofList_toList (s := path), chars]
        rfl
      simp [root, isReservedPath] at unreserved
    | cons c rest => exact ⟨c, rest, chars⟩
  · cases plain

theorem of_parts_get_iff {target : String} {remote : Option String} {request : Request} :
    Request.ofParts? "GET" target remote = some request ↔
      ∃ uri, Uri.parse? target = some uri ∧
        ⟨"GET", uri, (remote.bind SocketAddress.parse?).map SocketAddress.text⟩ = request := by
  have get : isMethod "GET" = true := by decide
  rw [Request.ofParts?, if_pos get, Option.map_eq_some_iff]

/-- A listed path is answered by its provider exactly if it is a target by itself. Otherwise a
    request for it is refused or read as the part before its query and fragment, and gets the
    list of commands unless that part has an answer of its own. -/
theorem listed_path_answers_iff {σ P : Type} {table : RouteTable P} (reachable : table.Reachable)
    (query : Query σ P) (metrics : Metrics) {path : String}
    (listed : path ∈ table.listing.availableCommands) (remote : Option String) (state : σ)
    (asked : List P) :
    ∃ provider, (path, provider) ∈ table.routes ∧
      ((∃ request, Request.ofParts? "GET" path remote = some request ∧
        request.uri.path = path) ↔ Uri.IsPath path) ∧
      ∀ request, Request.ofParts? "GET" path remote = some request →
        let handled := table.build.handle query.recorded metrics request (state, asked)
        (Uri.IsPath path → handled.AnsweredBy query "GET" provider state asked) ∧
          (¬ Uri.IsPath path →
            request.uri.path = String.ofList (Uri.pathPart path.toList) ∧
              request.uri.path ≠ path ∧
              (request.uri.path ∉ table.paths → request.uri.path ≠ "/metrics" →
                handled.Lists "GET" table state asked)) := by
  have sound := RouteTable.sound_of_reachable reachable
  obtain ⟨provider, route⟩ := RouteTable.mem_paths_iff.mp listed
  obtain ⟨c, rest, rooted⟩ :=
    rooted_of_plain (sound.plain path listed) (sound.unreserved path listed)
  have works := Uri.is_path_iff rooted
  refine ⟨provider, route, ?_, ?_⟩
  · rw [works]
    constructor
    · rintro ⟨request, legal, same⟩
      obtain ⟨uri, parsed, rfl⟩ := of_parts_get_iff.mp legal
      exact ⟨uri, parsed, same⟩
    · rintro ⟨uri, parsed, same⟩
      exact ⟨_, of_parts_get_iff.mpr ⟨uri, parsed, rfl⟩, same⟩
  · intro request legal handled
    obtain ⟨uri, parsed, rfl⟩ := of_parts_get_iff.mp legal
    constructor
    · intro itself
      have same : uri.path = path := by
        rw [Uri.parse_of_is_path rooted itself] at parsed
        cases parsed
        rfl
      have asks : (uri.path, provider) ∈ table.routes := by rwa [same]
      exact Router.handle_registered query metrics state asked sound asks
    · intro foreign
      refine ⟨(Uri.path_of_parse rooted parsed).1, ?_, ?_⟩
      · intro same
        exact foreign (works.mpr ⟨uri, parsed, same⟩)
      · intro unlisted other
        exact Router.handle_unlisted query metrics state asked unlisted other

/-- A table whose one path has a query in it. -/
def questionTable : RouteTable Provider := ⟨[("/v1/nodes?all", .fixed (Json.integer 1))]⟩

theorem question_table_reachable : questionTable.Reachable :=
  .registered .empty (RouteTable.register_eq_ok_iff.mpr ⟨by decide, by decide, by decide, rfl⟩)

/-- Its listed path is legal, and gets the list of commands. -/
theorem listed_path_answers_iff_question :
    "/v1/nodes?all" ∈ questionTable.listing.availableCommands ∧ ¬ Uri.IsPath "/v1/nodes?all" ∧
      ∃ request, Request.ofParts? "GET" "/v1/nodes?all" none = some request ∧
        (questionTable.build.handle (Query.recorded Provider.query) Metrics.empty request
          (Sources.empty, [])).Lists "GET" questionTable Sources.empty [] := by
  have listed : "/v1/nodes?all" ∈ questionTable.listing.availableCommands := by decide
  have foreign : ¬ Uri.IsPath "/v1/nodes?all" := by
    intro path
    have question := path.2 '?' (by decide)
    cases question
  obtain ⟨_, _, _, answers⟩ := listed_path_answers_iff question_table_reachable Provider.query
    Metrics.empty listed none Sources.empty []
  have legal : Request.ofParts? "GET" "/v1/nodes?all" none =
      some ⟨"GET", ⟨none, none, "/v1/nodes", some "all"⟩, none⟩ := by decide
  obtain ⟨_, lists⟩ := answers _ legal
  exact ⟨listed, foreign, _, legal, (lists foreign).2.2 (by decide) (by decide)⟩

end SnapshotEndpoint
