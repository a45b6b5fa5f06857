import SplitHorizon.Proofs.Answers.Targets
import SplitHorizon.Proofs.Recursion.Walk
/-!
# The order in which servers are asked

From the text of a document to the calls of a walk. Repetitions are left out twice on the way: the
store leaves out targets that are spelled the same, and the walk leaves out servers that it has
tried. The two come to one: the servers of all that the document lists for the client, each at its
first occurrence (`walk_build`).
-/

namespace SplitHorizon.Recursion

/-- The servers of all targets that entries list for a client, each at its first occurrence. -/
def serversFor (out : Outside Id) (entries : List (String × Json)) (client : Address) :
    List Endpoint :=
  ((listedFor entries client).filterMap (server? out)).eraseDups

/-- **A client's query goes to the servers that the document lists for the client**, in their order
and to each once, up to the first that ends the walk. -/
theorem walk_build {text : String} {s : Store} (h : Store.build text = .ok s) :
    ∃ d, Document.read text = some d ∧ ((d.entries.filter isCommon).length ≤ 1 →
      ∀ (out : Outside Id) (client : Address) (protocol : Protocol) (query : List UInt8),
        headerSize ≤ query.length →
        (walk out protocol query (s.targets client)).calls =
            (contacted out protocol query (serversFor out d.entries client)).map
              (fun server => ⟨server, protocol, query⟩) ∧
          (serversFor out d.entries client).Nodup) := by
  unfold Store.build at h
  split at h
  · cases h
  · rename_i d hd
    refine ⟨d, hd, fun hone out client protocol query hquery => ⟨?_, nodup_eraseDups _⟩⟩
    have hnumber := number?_eq_some_iff.mpr ⟨hquery, rfl⟩
    rw [walk_calls hnumber, targets_ofEntries h hone, eraseDups_filterMap_eraseDups, serversFor]

/-- A network's servers by address and by name, and servers for everyone. -/
def repeated : String := "\x7b\"recurse\":[\"192.0.2.1\",\"192.0.2.2\"]," ++
  "\"10.0.0.0/8\":\x7b\"recurse\":[\"ns.test\",\"192.0.2.1\"]\x7d," ++
  "\"10.1.0.0/16\":\x7b\"recurse\":[\"192.0.2.1\"]\x7d\x7d"

/-- A name server that goes by one name, and servers of which one is down. -/
def scripted : Outside Id where
  lookUp _ port := .found [.v4 0xc0000201 port, .v4 0xc0000203 port]
  exchange call :=
    if call.server = .v4 0xc0000201 53 then .error (.timedOut "192.0.2.1:53") else .ok call.message

/-- The server at 192.0.2.1 stands under three headings and is asked once. -/
theorem walk_build_repeated :
    ∃ s, Store.build repeated = .ok s ∧
      (walk scripted .udp (List.replicate 12 0) (s.targets (.v4 0x0a010001))).calls =
        [⟨.v4 0xc0000201 53, .udp, List.replicate 12 0⟩,
          ⟨.v4 0xc0000202 53, .udp, List.replicate 12 0⟩] := by
  have hbuild : (Store.build repeated).toOption.isSome = true := by decide +kernel
  obtain ⟨s, hs⟩ := Option.isSome_iff_exists.mp hbuild
  have hs := toOption_eq_some_iff.mp hs
  obtain ⟨d, hd, hwalk⟩ := walk_build hs
  have hcommon : (Document.read repeated).all
      (fun d => (d.entries.filter isCommon).length ≤ 1) = true := by decide +kernel
  have hservers : (Document.read repeated).all (fun d =>
      contacted scripted .udp (List.replicate 12 0)
        (serversFor scripted d.entries (.v4 0x0a010001)) ==
          [.v4 0xc0000201 53, .v4 0xc0000202 53]) = true := by decide +kernel
  rw [hd, Option.all_some] at hcommon hservers
  refine ⟨s, hs, ?_⟩
  rw [(hwalk (of_decide_eq_true hcommon) scripted (.v4 0x0a010001) .udp (List.replicate 12 0)
    (by decide)).1, beq_iff_eq.mp hservers]
  rfl

end SplitHorizon.Recursion
