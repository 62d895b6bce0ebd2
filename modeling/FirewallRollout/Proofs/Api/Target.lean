import FirewallRollout.Api.Handler
import FirewallRollout.Proofs.Text.Percent
import FirewallRollout.Proofs.Text.Pieces
import Mathlib.Data.List.TakeWhile

/-!
# Targets that name a server

A server may be named in the path of a target, where its name is taken as it is, and in its query,
where blanks at its ends are dropped and a name of nothing but blanks counts as none.
-/
namespace FirewallRollout.Api
open Rebuild (State)
open Text (pieces)

/-- The target of a route of a server. -/
def serverTarget (server verb : String) : String :=
  "/servers/" ++ Text.Percent.encode server ++ "/" ++ verb

/-- The target of a route with a server in its query. -/
def queryTarget (path server : String) : String :=
  path ++ "?serverId=" ++ Text.Percent.encode server

/-- What is answered to a request that only reads. -/
def get (s : State) (target : String) : Response :=
  (handle s { method := "GET", target } "" 0).1

namespace Route

theorem withoutHost_slash (cs : List Char) : withoutHost ('/' :: cs) = '/' :: cs := by
  have hscheme : ('/' :: cs).takeWhile isSchemeChar = [] := by
    rw [List.takeWhile_cons, if_neg (by decide)]
  rw [withoutHost, hscheme]

/-- A path is a target of its own. -/
theorem splitTarget_path {path : List Char} (h : ∀ c ∈ path, c ≠ '#' ∧ c ≠ '?') :
    splitTarget (.ofList ('/' :: path)) = (.ofList ('/' :: path), "") := by
  have hall : ∀ c ∈ '/' :: path, c ≠ '#' ∧ c ≠ '?' :=
    List.forall_mem_cons.mpr ⟨by decide, h⟩
  have hfragment : ('/' :: path).takeWhile (· != '#') = '/' :: path :=
    List.takeWhile_eq_self_iff.mpr fun c hc => by simpa using (hall c hc).1
  have hpath : ('/' :: path).takeWhile (· != '?') = '/' :: path :=
    List.takeWhile_eq_self_iff.mpr fun c hc => by simpa using (hall c hc).2
  have hrest : ('/' :: path).dropWhile (· != '?') = [] :=
    List.dropWhile_eq_nil_iff.mpr fun c hc => by simpa using (hall c hc).2
  simp only [splitTarget, String.toList_ofList, hfragment, withoutHost_slash, hpath, hrest]
  rfl

/-- A path with a query behind a question mark. -/
theorem splitTarget_query {path query : List Char} (h : ∀ c ∈ path, c ≠ '#' ∧ c ≠ '?')
    (hquery : ∀ c ∈ query, c ≠ '#') :
    splitTarget (.ofList ('/' :: path ++ '?' :: query)) = (.ofList ('/' :: path), .ofList query) := by
  have hall : ∀ c ∈ '/' :: path, c ≠ '#' ∧ c ≠ '?' :=
    List.forall_mem_cons.mpr ⟨by decide, h⟩
  have hpath : ∀ c ∈ '/' :: path, (c != '?') = true := fun c hc => by simpa using (hall c hc).2
  have hfragment : ('/' :: path ++ '?' :: query).takeWhile (· != '#') =
      '/' :: (path ++ '?' :: query) := by
    refine List.takeWhile_eq_self_iff.mpr fun c hc => ?_
    rcases List.mem_append.mp hc with hc | hc
    · simpa using (hall c hc).1
    rcases List.mem_cons.mp hc with rfl | hc
    · decide
    · simpa using hquery c hc
  simp only [splitTarget, String.toList_ofList, hfragment, withoutHost_slash]
  rw [← List.cons_append, List.takeWhile_append_of_pos hpath, List.dropWhile_append_of_pos hpath]
  simp

end Route

/-- An encoded name holds nothing that ends a part of a target. -/
theorem ne_of_mem_encode {c : Char} {server : String}
    (hc : c ∈ (Text.Percent.encode server).toList) :
    c ≠ '/' ∧ c ≠ '?' ∧ c ≠ '#' ∧ c ≠ '&' ∧ c ≠ '=' := by
  have hencoded := Text.Percent.isEncoded_encode server c hc
  have hother : ∀ d : Char, Text.Percent.isEncoded d = false → c ≠ d := by
    rintro d hd rfl
    rw [hencoded] at hd
    cases hd
  exact ⟨hother _ (by decide), hother _ (by decide), hother _ (by decide), hother _ (by decide),
    hother _ (by decide)⟩

section Server
variable (server : String)

/-- The route of a server is found with the encoded name for a segment. -/
theorem splitTarget_serverTarget (verb : String)
    (hverb : ∀ c ∈ verb.toList, c ≠ '#' ∧ c ≠ '?' ∧ c ≠ '/') :
    Route.splitTarget (serverTarget server verb) = (serverTarget server verb, "") ∧
      (serverTarget server verb).splitOn "/" =
        ["", "servers", Text.Percent.encode server, verb] := by
  constructor
  · have htarget : serverTarget server verb = .ofList ('/' :: ("servers/".toList ++
        (Text.Percent.encode server).toList ++ '/' :: verb.toList)) := by
      rw [← String.toList_inj]
      simp [serverTarget]
    rw [htarget, Route.splitTarget_path]
    intro c hc
    simp only [List.mem_append, List.mem_cons] at hc
    rcases hc with (hc | hc) | rfl | hc
    · have hservers : ∀ c ∈ "servers/".toList, c ≠ '#' ∧ c ≠ '?' := by simp
      exact hservers c hc
    · exact ⟨(ne_of_mem_encode hc).2.2.1, (ne_of_mem_encode hc).2.1⟩
    · decide
    · exact ⟨(hverb c hc).1, (hverb c hc).2.1⟩
  · have hjoined : serverTarget server verb = (String.singleton '/').intercalate
        ["", "servers", Text.Percent.encode server, verb] := by
      rw [← String.toList_inj]
      simp [serverTarget]
    rw [hjoined, show "/" = String.singleton '/' from rfl, Text.splitOn_singleton,
      Text.pieces_intercalate _ (by simp)]
    simp only [List.forall_mem_cons]
    exact ⟨by decide, by decide, fun hc => (ne_of_mem_encode hc).1 rfl,
      fun hc => (hverb _ hc).2.2 rfl, List.forall_mem_nil _⟩

/-- The query is split from the path. -/
theorem splitTarget_queryTarget (path : List Char) (h : ∀ c ∈ path, c ≠ '#' ∧ c ≠ '?') :
    Route.splitTarget (queryTarget (.ofList ('/' :: path)) server) =
      (.ofList ('/' :: path), "serverId=" ++ Text.Percent.encode server) := by
  have htarget : queryTarget (.ofList ('/' :: path)) server = .ofList ('/' :: path ++
      '?' :: ("serverId=".toList ++ (Text.Percent.encode server).toList)) := by
    rw [← String.toList_inj]
    simp [queryTarget]
  rw [htarget, Route.splitTarget_query h]
  · rw [String.ofList_append, String.ofList_toList, String.ofList_toList]
  · intro c hc
    rcases List.mem_append.mp hc with hc | hc
    · have hkey : ∀ c ∈ "serverId=".toList, c ≠ '#' := by simp
      exact hkey c hc
    · exact (ne_of_mem_encode hc).2.2.1

/-- A query of a server alone is read as the name of that server. -/
theorem read_serverId {known : List String} (hknown : known.contains "serverId" = true) :
    Query.read known ("serverId=" ++ Text.Percent.encode server) = .ok [("serverId", server)] := by
  have hquery : "serverId=" ++ Text.Percent.encode server =
      .ofList ("serverId".toList ++ '=' :: (Text.Percent.encode server).toList) := by
    rw [← String.toList_inj]
    simp
  have hname : Text.Percent.decodeForm "serverId" = "serverId" := by decide +kernel
  have hpairs : Text.Percent.formPairs ("serverId=" ++ Text.Percent.encode server) =
      [("serverId", server)] := by
    rw [hquery, Text.Percent.formPairs_pair (by decide) (by decide)
        fun hc => (ne_of_mem_encode hc).2.2.2.1 rfl,
      String.ofList_toList, String.ofList_toList, hname, Text.Percent.decodeForm_encode]
  have hkept : [("serverId", server)].filter (fun p => known.contains p.1) =
      [("serverId", server)] :=
    List.filter_eq_self.mpr fun p hp => by rw [List.mem_singleton.mp hp]; exact hknown
  rw [Query.read, hpairs, hkept]
  rfl

end Server

/-! ## Requests with such targets -/

section Requests
variable (s : State)

theorem get_eq {target path query : String} {route : Route}
    (htarget : Route.splitTarget target = (path, query)) (hroute : Route.ofPath? path = some route)
    (haccess : route.access = .read) : get s target = read s route query := by
  cases route with
  | serverRebuild | taskCancel => cases haccess
  | _ =>
    unfold get handle
    rw [htarget]
    dsimp only
    rw [hroute]
    rfl

theorem handle_post {target path query : String} {route : Route}
    (htarget : Route.splitTarget target = (path, query)) (hroute : Route.ofPath? path = some route)
    (haccess : route.access = .act) (body : List UInt8) (fresh : String) (now : Int64) :
    handle s { method := "POST", target, body } fresh now = act s route body fresh now := by
  cases route with
  | serverRebuild | taskCancel =>
    unfold handle
    rw [htarget]
    dsimp only
    rw [hroute]
    rfl
  | _ => cases haccess

variable (server : String)

theorem nameOf_encode (parameter : String) :
    nameOf parameter (Text.Percent.encode server) = .ok server := by
  rw [nameOf, Text.Percent.decode?_encode]
  rfl

/-- A rebuild is asked for under the name that was encoded. -/
theorem handle_rebuild (body : List UInt8) (fresh : String) (now : Int64) :
    handle s { method := "POST", target := serverTarget server "rebuild", body } fresh now =
      rebuild s server body fresh now := by
  obtain ⟨htarget, hsegments⟩ := splitTarget_serverTarget server "rebuild" (by simp)
  have hroute : Route.ofPath? (serverTarget server "rebuild") =
      some (.serverRebuild (Text.Percent.encode server)) := by
    rw [Route.ofPath?, hsegments]
    rfl
  rw [handle_post s htarget hroute rfl]
  simp only [act, nameOf_encode]

/-- The rules are those of the name that was encoded. -/
theorem get_rules : get s (serverTarget server "rules") =
    .ofExcept 200 ((s.rulesFor server).map .rules) := by
  obtain ⟨htarget, hsegments⟩ := splitTarget_serverTarget server "rules" (by simp)
  have hroute : Route.ofPath? (serverTarget server "rules") =
      some (.serverRules (Text.Percent.encode server)) := by
    rw [Route.ofPath?, hsegments]
    rfl
  rw [get_eq s htarget hroute rfl]
  simp only [read, nameOf_encode]

/-- The listing is that of the trimmed name, or of all tasks if nothing is left of it. -/
theorem get_tasks : get s (queryTarget "/tasks" server) =
    { status := 200
      payload := .page
        { tasks := (s.registry.matching { server := Text.present (some server) }).take 50
          total := (s.registry.matching { server := Text.present (some server) }).length
          limit := 50, offset := 0 } } := by
  have hroute : Route.ofPath? "/tasks" = some .tasks := by
    rw [Route.ofPath?, show "/" = String.singleton '/' from rfl, Text.splitOn_singleton]
    decide +kernel
  have htarget : Route.splitTarget (queryTarget "/tasks" server) =
      ("/tasks", "serverId=" ++ Text.Percent.encode server) :=
    splitTarget_queryTarget server "tasks".toList (by simp)
  have hread : Query.read ["serverId", "status", "limit", "offset"]
      ("serverId=" ++ Text.Percent.encode server) = .ok [("serverId", server)] :=
    read_serverId server (by decide)
  rw [get_eq s htarget hroute rfl]
  simp only [read, listing, hread]
  rfl

/-- The census is that of the trimmed name, or of all rules if nothing is left of it. -/
theorem get_stats : get s (queryTarget "/stats" server) =
    .ofExcept 200 ((s.census (Text.present (some server))).map .census) := by
  have hroute : Route.ofPath? "/stats" = some .stats := by
    rw [Route.ofPath?, show "/" = String.singleton '/' from rfl, Text.splitOn_singleton]
    decide +kernel
  have htarget : Route.splitTarget (queryTarget "/stats" server) =
      ("/stats", "serverId=" ++ Text.Percent.encode server) :=
    splitTarget_queryTarget server "stats".toList (by simp)
  have hread : Query.read ["serverId"] ("serverId=" ++ Text.Percent.encode server) =
      .ok [("serverId", server)] :=
    read_serverId server (by decide)
  rw [get_eq s htarget hroute rfl]
  simp only [read, stats, hread]
  rfl

end Requests

end FirewallRollout.Api
