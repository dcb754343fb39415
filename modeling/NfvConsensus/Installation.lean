import NfvConsensus.Posting
import NfvConsensus.RestAcceptance

/-! What the posts of whole runs lead to. Whatever is decided and read, a post is the rule of a
request, and the REST interface of the controller it goes to refuses it. -/
namespace NfvConsensus.System
open Python ClientPaxos Foundation.Text Foundation.Framing Foundation.Transition OfctlRest

def addPath : Str := "/stats/flowentry/add".toList

theorem url_path (host : Nat) :
    Manager.url host = "http://".toList ++ Network.address host ++ ":8080".toList ++ addPath := by
  have back : ":8080/stats/flowentry/add".toList = ":8080".toList ++ addPath := literal_append
  calc Manager.url host
    _ = "http://".toList ++ Network.address host ++ ":8080/stats/flowentry/add".toList := Network.address_url host
    _ = "http://".toList ++ Network.address host ++ (":8080".toList ++ addPath) :=
      congrArg ("http://".toList ++ Network.address host ++ ·) back
    _ = "http://".toList ++ Network.address host ++ ":8080".toList ++ addPath := (List.append_assoc _ _ _).symm

/-- In every run, no post of any manager makes a controller do anything, whatever datapaths are
connected to it and whatever its OpenFlow library does: the handler of its path raises. -/
theorem nothing_installed (net : Network) (few : net.numCtls ≤ 253) (now : Nat → Rat) (state : State)
    (reached : (system net now).Reachable state) (vnf k : Nat) (post : Manager.Post) (posts : state.Posts vnf k post)
    {ρ : Type} (env : Environment ρ) :
    (∃ address, post.url = "http://".toList ++ address ++ ":8080".toList ++ addPath) ∧
      flowentry env "add".toList post.data = ⟨[],.error .attributeError⟩ := by
  obtain ⟨_,_,request,_,_,is⟩ := (reachable_sound few now reached).posted_rule few vnf k _ posts
  split at is
  · obtain rfl := Option.some.inj is
    exact ⟨⟨_,url_path _⟩,flowentry_quoted env "add".toList request⟩
  · contradiction

theorem nothing_installed_sample : ∃ state : State, state.Posts 0 0 ⟨Manager.url 2,Request.sample.rule⟩ ∧
    flowentry sampleEnvironment "add".toList Request.sample.rule = ⟨[],.error .attributeError⟩ := by
  obtain ⟨state,ran,posted⟩ := Option.map_eq_some_iff.mp sample_delivered
  have posts : state.Posts 0 0 ⟨Manager.url 2,Request.sample.rule⟩ := by
    rw [State.Posts,posted]
    rfl
  have refused := nothing_installed ⟨1,1⟩ (by decide) (fun _ => 0) state (Machine.reachable_run _ state _ .initial ran)
    0 0 _ posts sampleEnvironment
  exact ⟨state,posts,refused.2⟩

end NfvConsensus.System
