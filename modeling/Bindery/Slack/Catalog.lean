import Bindery.Catalog.Basic

/-!
# The catalog of the Slack Web API
-/
namespace Bindery.Slack

/-- An argument that must be given. -/
def required (name : String) (type : ArgType) (comment : String) : Argument :=
  { name, type, required := true, comment }

/-- An argument that may be set. -/
def optional (name : String) (type : ArgType) (comment : String) : Argument :=
  { name, type, comment }

def catalog : Catalog := ⟨[
  { name := "auth.revoke"
    arguments := [
      optional "test" .boolean "Only check whether the token would be revoked."] },
  { name := "auth.test"
    returnType := "crate::objects::AuthTestResponse" },
  { name := "channels.archive"
    arguments := [
      required "channel" .text "Channel to archive."] },
  { name := "channels.create"
    responseField := "channel"
    returnType := "crate::objects::Channel"
    arguments := [
      required "name" .text "Name of the channel to create.",
      optional "validate" .boolean "Fail instead of normalizing an invalid name."] },
  { name := "channels.history"
    returnType := "crate::objects::ChannelsHistoryResponse"
    arguments := [
      required "channel" .text "Channel to fetch history for.",
      { optional "count" .integer
          "Number of messages to return, between 1 and 1000." with
        default := "100" },
      optional "inclusive" .boolean "Include messages with latest or oldest timestamp in results.",
      { optional "latest" .text
          "End of time range of messages to include in results." with
        default := "now" },
      { optional "oldest" .text
          "Start of time range of messages to include in results." with
        default := "0" },
      optional "unreads" .boolean "Include unread_count_display in the output."] },
  { name := "channels.info"
    responseField := "channel"
    returnType := "crate::objects::Channel"
    arguments := [
      required "channel" .text "Channel to get info on.",
      optional "include_locale" .boolean
        "Set this to true to receive the locale for this channel."] },
  { name := "channels.list"
    responseField := "channels"
    returnType := "Vec<crate::objects::Channel>"
    arguments := [
      optional "exclude_archived" .boolean "Exclude archived channels from the list.",
      optional "exclude_members" .boolean "Exclude the members collection from each channel.",
      optional "limit" .integer "The maximum number of items to return."] },
  { name := "channels.setTopic"
    responseField := "topic"
    returnType := "String"
    arguments := [
      required "channel" .text "Channel to set the topic of.",
      required "topic" .text "The new topic."] },
  { name := "chat.delete"
    arguments := [
      optional "as_user" .boolean "Delete the message as the authed user.",
      required "channel" .text "Channel containing the message to be deleted.",
      required "ts" .text "Timestamp of the message to be deleted."] },
  { name := "chat.meMessage"
    arguments := [
      required "channel" .text "Channel to send message to.",
      required "text" .text "Text of the message to send."] },
  { name := "chat.postMessage"
    responseField := "message"
    returnType := "crate::objects::Message"
    arguments := [
      optional "as_user" .boolean "Post the message as the authed user, instead of as a bot.",
      optional "attachments" (.list "crate::objects::Attachment")
        "Structured message attachments.",
      required "channel" .text "Channel, private group, or IM channel to send message to.",
      optional "escape" .boolean "Escape &, < and > in the text before sending.",
      optional "icon_emoji" .text "Emoji to use as the icon for this message.",
      optional "icon_url" .text "URL to an image to use as the icon for this message.",
      optional "link_names" .boolean "Find and link channel names and usernames.",
      { optional "markdown" .boolean
          "Enable Slack markup parsing." with
        default := "true", queryName := "mrkdwn" },
      optional "parse" .text "Change how messages are treated.",
      optional "reply_broadcast" .boolean
        "Make a threaded reply visible to everyone in the channel.",
      optional "text" .text "Text of the message to send.",
      optional "thread_ts" .text
        "Provide another message's ts value to make this message a reply.",
      optional "unfurl_links" .boolean "Enable unfurling of primarily text-based content.",
      optional "unfurl_media" .boolean "Enable unfurling of media content.",
      optional "username" .text "Set your bot's user name."] },
  { name := "chat.update"
    arguments := [
      optional "as_user" .boolean "Update the message as the authed user.",
      optional "attachments" (.list "crate::objects::Attachment")
        "Structured message attachments.",
      required "channel" .text "Channel containing the message to be updated.",
      optional "link_names" .boolean "Find and link channel names and usernames.",
      optional "parse" .text "Change how messages are treated.",
      optional "text" .text "New text for the message.",
      required "ts" .text "Timestamp of the message to be updated."] },
  { name := "dialog.open"
    arguments := [
      required "dialog" (.object "crate::objects::Dialog") "The dialog definition.",
      required "trigger_id" .text "Exchange a trigger to post to the user."] },
  { name := "im.close"
    group := "IM"
    arguments := [
      required "channel" .text "Direct message channel to close."] },
  { name := "im.open"
    group := "IM"
    responseField := "channel"
    returnType := "crate::objects::Channel"
    arguments := [
      optional "include_locale" .boolean "Receive the locale for this im.",
      optional "return_im" .boolean "Return the full IM channel definition.",
      required "user" .text "User to open a direct message channel with."] },
  { name := "oauth.access"
    returnType := "crate::objects::OAuthAccessResponse"
    skipToken := true
    arguments := [
      required "client_id" .text "Issued when you created your application.",
      required "client_secret" .text "Issued when you created your application.",
      required "code" .text "The code param returned via the OAuth callback.",
      optional "redirect_uri" .text "Must match the originally submitted URI (if one was sent)."] },
  { name := "reactions.add"
    arguments := [
      optional "channel" .text "Channel where the message to add reaction to was posted.",
      optional "file" .text "File to add reaction to.",
      optional "file_comment" .text "File comment to add reaction to.",
      required "name" .text "Reaction (emoji) name.",
      optional "timestamp" .text "Timestamp of the message to add reaction to."] },
  { name := "reactions.remove"
    arguments := [
      optional "channel" .text "Channel where the message to remove reaction from was posted.",
      optional "file" .text "File to remove reaction from.",
      optional "file_comment" .text "File comment to remove reaction from.",
      required "name" .text "Reaction (emoji) name.",
      optional "timestamp" .text "Timestamp of the message to remove reaction from."] },
  { name := "users.conversations"
    responseField := "channels"
    returnType := "Vec<crate::objects::Channel>"
    arguments := [
      optional "cursor" .text "Paginate through collections of data.",
      optional "exclude_archived" .boolean "Exclude archived channels from the list.",
      { optional "limit" .integer "The maximum number of items to return." with default := "100" },
      { optional "types" (.list "String")
          "Conversation types to include." with
        singular := some "conversation_type" },
      optional "user" .text "Browse conversations by a specific user ID's membership."] },
  { name := "users.info"
    responseField := "user"
    returnType := "crate::objects::User"
    arguments := [
      optional "include_locale" .boolean "Receive the locale for this user.",
      required "user" .text "User to get info on."] },
  { name := "users.list"
    responseField := "members"
    returnType := "Vec<crate::objects::User>"
    arguments := [
      optional "include_locale" .boolean "Receive the locale for users.",
      optional "limit" .integer "The maximum number of items to return.",
      optional "presence" .boolean "Include presence data in the output."] },
  { name := "users.setPresence"
    arguments := [
      required "presence" .text "Either auto or away."] },
  { name := "users.profile.get"
    responseField := "profile"
    returnType := "crate::objects::UserProfile"
    arguments := [
      optional "include_labels" .boolean "Include labels for each ID in custom profile fields.",
      optional "user" .text "User to retrieve profile info for."] },
  { name := "users.profile.set"
    responseField := "profile"
    returnType := "crate::objects::UserProfile"
    arguments := [
      optional "name" .text "Name of a single key to set.",
      optional "profile" (.object "crate::objects::UserProfile") "Collection of key:value pairs.",
      optional "user" .text "ID of user to change.",
      optional "value" .text "Value to set a single key to."] }]⟩

end Bindery.Slack
