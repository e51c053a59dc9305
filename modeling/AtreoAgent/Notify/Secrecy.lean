import AtreoAgent.Notify.Eligible

/-! What the coordination service learns of the notifications that pass through it. Title, text,
sender and subject are sealed to the key of the member, each text with fresh randomness, so
that an observer is left with the length of what is sealed. The envelopes then show the member,
the severity and lengths, whichever way the notifications came. -/
namespace Notify

open Codec Json Atreolink Acl Fallible

/-- An envelope to someone without the key of the member: a sealed text shows its length. -/
structure View where
  userID : String
  agentID : String
  severity : String
  summary : Nat
  html : Option Nat
  plaintext : Option Nat
  deriving DecidableEq, Repr

def NotificationEnvelope.view (e : NotificationEnvelope) : View where
  userID := e.userID
  agentID := e.agentID
  severity := e.severity
  summary := e.summary.length
  html := e.html.map String.length
  plaintext := e.plaintext.map String.length

/-- `box.SealAnonymous` seals with a key it draws for each text. Whether it takes the key of the
member and how long the result is do not depend on what is drawn, nor on more of the text than
its length. -/
def Sized (size : PublicKey → Nat → Option Nat) (env : Env) : Prop :=
  ∀ key p, (env.sealAnonymous key p).map String.length = size key p.length

/-- What the view of a notification may depend on. -/
structure Outline where
  userID : String
  identityKey : String
  severity : String
  summaryLength : Nat
  htmlLength : Nat
  plaintextLength : Nat
  deriving DecidableEq, Repr

def outline (env : Env) (call : MemberACLEntry × NotifyRequest) : Outline where
  userID := call.1.userID
  identityKey := call.1.identityKey
  severity := call.2.severity
  summaryLength := ((summary env call.1 call.2).print true).length
  htmlLength := (utf8 call.2.html).length
  plaintextLength := (utf8 call.2.plaintext).length

section

variable (size : PublicKey → Nat → Option Nat)

/-- The length of a text of this length, sealed to a member. -/
def sealedSize (identityKey : String) (n : Nat) : Option Nat :=
  (decodeEd25519 identityKey).bind (size · n)

/-- A full body that is empty is left out. -/
def bodySize (identityKey : String) (n : Nat) : Option (Option Nat) :=
  if n = 0 then some none else (sealedSize size identityKey n).map some

/-- What is seen of a notification with this outline, if it can be sealed. -/
def Outline.view (agentID : String) (o : Outline) : Option View :=
  if o.identityKey = "" then none
  else
    (sealedSize size o.identityKey o.summaryLength).bind fun summary =>
      (bodySize size o.identityKey o.htmlLength).bind fun html =>
        (bodySize size o.identityKey o.plaintextLength).map fun plaintext =>
          { userID := o.userID, agentID := agentID, severity := o.severity, summary := summary
            html := html, plaintext := plaintext }

end

variable {size : PublicKey → Nat → Option Nat} {env : Env}

theorem length_sealToUser (hSized : Sized size env) (identityKey : String) (p : Bytes) :
    (sealToUser env identityKey p).map String.length = sealedSize size identityKey p.length := by
  unfold sealToUser sealedSize
  cases decodeEd25519 identityKey with
  | none => rfl
  | some key => exact hSized key p

theorem utf8_length_eq_zero {s : String} : (utf8 s).length = 0 ↔ s = "" := by
  rw [List.length_eq_zero_iff]
  constructor
  · intro h
    exact utf8_injective h
  · rintro rfl
    rfl

theorem length_sealBody (hSized : Sized size env) (e : SendError) (identityKey text : String) :
    (sealBody env e identityKey text).toOption.map (Option.map String.length) =
      bodySize size identityKey (utf8 text).length := by
  by_cases hText : text = ""
  · rw [sealBody, if_pos hText, bodySize, if_pos (utf8_length_eq_zero.mpr hText)]
    rfl
  · rw [sealBody, if_neg hText, bodySize, if_neg (mt utf8_length_eq_zero.mp hText),
      ← length_sealToUser hSized]
    cases sealToUser env identityKey (utf8 text) <;> rfl

theorem view_buildEnvelope (hSized : Sized size env) (server : Server)
    (member : MemberACLEntry) (req : NotifyRequest) :
    (buildEnvelope env server member req).toOption.map NotificationEnvelope.view =
      (outline env (member, req)).view size server.agentID := by
  have hSummary := length_sealToUser hSized member.identityKey ((summary env member req).print true)
  have hHTML := length_sealBody hSized .sealHTML member.identityKey req.html
  have hPlaintext := length_sealBody hSized .sealPlaintext member.identityKey req.plaintext
  rw [Outline.view]
  by_cases hKey : (outline env (member, req)).identityKey = ""
  · rw [if_pos hKey, buildEnvelope, show member.identityKey = "" from hKey]
    rfl
  · have hSome : decide (member.identityKey ≠ "") = true := decide_eq_true hKey
    rw [if_neg hKey, buildEnvelope, ensure, if_pos hSome]
    dsimp only [outline]
    rw [← hSummary, ← hHTML, ← hPlaintext]
    -- The three texts are sealed in turn; the first that cannot be ends both sides.
    cases sealToUser env member.identityKey ((summary env member req).print true) with
    | none => rfl
    | some sealed =>
        cases sealBody env .sealHTML member.identityKey req.html with
        | error e => rfl
        | ok html =>
            cases sealBody env .sealPlaintext member.identityKey req.plaintext with
            | error e => rfl
            | ok plaintext => rfl

/-- A request, with the world it meets: the randomness, the clock and the access list. -/
structure Arrival where
  env : Smtp.Env
  store : Acl.Store
  request : Request

/-- Whatever comes in, by mail, from programs or from the agent itself, under whichever
randomness, clocks and access lists: what is seen of the envelopes is a function of the
outlines of the notifications. -/
theorem envelopes_show_outlines (size : PublicKey → Nat → Option Nat) (cfg : Smtp.Config)
    (server : Server) (arrivals : List Arrival) (hSized : ∀ r ∈ arrivals, Sized size r.env.notify) :
    arrivals.flatMap (fun r =>
        (dispatched r.env cfg server r.store r.request).map fun d => d.envelope.view) =
      (arrivals.flatMap fun r =>
        (addressed r.env cfg server r.store r.request).map (outline r.env.notify)).filterMap
          (Outline.view size server.agentID) := by
  rw [List.filterMap_flatMap]
  refine List.flatMap_congr fun r hr => ?_
  rw [dispatched_eq, List.map_filterMap, List.filterMap_map]
  refine List.filterMap_congr fun call _ => ?_
  rw [Function.comp_apply, ← view_buildEnvelope (hSized r hr) server call.1 call.2, Option.map_map]
  rfl

/-- Sealing adds 48 bytes to a text, and the draw decides which; the id is drawn as well. -/
def drawnEnv (draw : Char) : Smtp.Env :=
  { openEnv with notify :=
    { openEnv.notify with
      sealAnonymous := fun _ p => some (String.ofList (List.replicate (p.length + 48) draw))
      randomID := fun _ => String.ofList [draw] } }

/-- A title from a program and a broadcast, each with its own draw. -/
def titled (title : String) (first second : Char) : List Arrival :=
  [⟨drawnEnv first, suspendedStore,
      .http "Bearer k" (utf8 ("\x7b\"title\":\"" ++ title ++ "\",\"userId\":\"u\"\x7d"))⟩,
    ⟨drawnEnv second, suspendedStore, .broadcast title (utf8 title) "info"⟩]

/-- Two titles of one length are not told apart, though nothing is sealed alike. -/
theorem titles_not_shown :
    (titled "yes" 'v' 'w').flatMap (fun r =>
        (dispatched r.env ⟨""⟩ keyedServer r.store r.request).map fun d => d.envelope.view) =
      (titled "not" 'x' 'y').flatMap (fun r =>
        (dispatched r.env ⟨""⟩ keyedServer r.store r.request).map fun d => d.envelope.view) ∧
    ((titled "yes" 'v' 'w').flatMap fun r =>
      dispatched r.env ⟨""⟩ keyedServer r.store r.request).length = 2 := by
  have hSized : ∀ title first second, ∀ r ∈ titled title first second,
      Sized (fun _ n => some (n + 48)) r.env.notify := by
    intro title first second r hr key p
    simp only [titled, List.mem_cons, List.not_mem_nil, or_false] at hr
    rcases hr with rfl | rfl <;> simp [drawnEnv]
  refine ⟨?_, by decide +kernel⟩
  rw [envelopes_show_outlines _ ⟨""⟩ keyedServer _ (hSized "yes" 'v' 'w'),
    envelopes_show_outlines _ ⟨""⟩ keyedServer _ (hSized "not" 'x' 'y')]
  exact congrArg (List.filterMap _) (by decide +kernel)

end Notify
