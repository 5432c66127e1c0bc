import MailMerge.Rendering
import MailMerge.Settings

/-! # Envelopes

A rendered email with the identity of its sender, ready to be handed over for delivery.
-/

namespace MailMerge

structure Envelope where
  toAddress : String
  subject : String
  html : String
  fromName : String
  fromEmail : String
  templateName : String
  deriving DecidableEq, Repr

/-- Renders a request and attaches the sender. Nothing is written. -/
def compose {σ : Type} [TemplateStore σ] (required : List Placeholder) (sender : Sender)
    (request : EmailRequest) : StoreM σ Envelope := do
  let email ← renderRequest required request
  return {
    toAddress := email.recipient
    subject := email.subject
    html := email.html
    fromName := sender.name
    fromEmail := sender.email
    templateName := email.templateName }

end MailMerge
