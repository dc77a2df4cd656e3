import Bindery.Json.SchemaReader

/-!
# Objects of the Slack Web API

The objects that calls take and give. Each field may be missing, since which fields an object has
depends on the endpoint and on what the token may see.
-/
namespace Bindery.Slack

open Json (Schema FieldRule)

/-- A field that is always written. -/
def kept (key : String) (s : Schema) : FieldRule × Schema := (⟨key, [], false, false⟩, s)

/-- A field that is written unless it is empty. -/
def sparse (key : String) (s : Schema) : FieldRule × Schema := (⟨key, [], false, true⟩, s)

def attachmentField : Schema := .record "AttachmentField" [
  kept "title" .text,
  kept "value" .text,
  kept "short" .flag]

def attachment : Schema := .record "Attachment" [
  sparse "fallback" .text,
  sparse "color" .text,
  sparse "pretext" .text,
  sparse "title" .text,
  sparse "title_link" .text,
  sparse "text" .text,
  sparse "fields" (.list attachmentField),
  sparse "footer" .text,
  sparse "ts" (.option .integer)]

def message : Schema := .record "Message" [
  kept "type" .text,
  kept "subtype" (.option .text),
  kept "channel" (.option .text),
  kept "user" (.option .text),
  kept "bot_id" (.option .text),
  kept "username" (.option .text),
  kept "text" .text,
  kept "ts" .text,
  kept "thread_ts" (.option .text),
  kept "attachments" (.list attachment)]

/-- Topic or purpose of a channel. -/
def channelTopic : Schema := .record "ChannelTopic" [
  kept "value" .text,
  kept "creator" .text,
  kept "last_set" .integer]

def channel : Schema := .record "Channel" [
  kept "id" .text,
  kept "name" .text,
  kept "created" .integer,
  kept "creator" .text,
  kept "is_channel" .flag,
  kept "is_im" .flag,
  kept "is_archived" .flag,
  kept "is_general" .flag,
  kept "is_member" .flag,
  kept "user" (.option .text),
  kept "members" (.list .text),
  kept "topic" (.option channelTopic),
  kept "purpose" (.option channelTopic),
  kept "num_members" (.option .integer),
  kept "locale" (.option .text)]

def userProfile : Schema := .record "UserProfile" [
  sparse "first_name" .text,
  sparse "last_name" .text,
  sparse "real_name" .text,
  sparse "display_name" .text,
  sparse "email" .text,
  sparse "phone" .text,
  sparse "title" .text,
  sparse "status_text" .text,
  sparse "status_emoji" .text]

def user : Schema := .record "User" [
  kept "id" .text,
  kept "team_id" .text,
  kept "name" .text,
  kept "real_name" .text,
  kept "deleted" .flag,
  kept "is_admin" .flag,
  kept "is_bot" .flag,
  kept "tz" (.option .text),
  kept "profile" userProfile,
  kept "presence" (.option .text),
  kept "locale" (.option .text)]

def dialogElement : Schema := .record "DialogElement" [
  kept "type" .text,
  kept "label" .text,
  kept "name" .text,
  sparse "placeholder" (.option .text),
  sparse "optional" (.option .flag)]

def dialog : Schema := .record "Dialog" [
  kept "callback_id" .text,
  kept "title" .text,
  sparse "submit_label" .text,
  kept "elements" (.list dialogElement)]

/-- Whom a token belongs to. -/
def authTestResponse : Schema := .record "AuthTestResponse" [
  kept "url" .text,
  kept "team" .text,
  kept "user" .text,
  kept "team_id" .text,
  kept "user_id" .text,
  kept "bot_id" (.option .text)]

def channelsHistoryResponse : Schema := .record "ChannelsHistoryResponse" [
  kept "latest" (.option .text),
  kept "messages" (.list message),
  kept "has_more" .flag,
  kept "unread_count_display" (.option .integer)]

def oauthAccessResponse : Schema := .record "OAuthAccessResponse" [
  kept "access_token" .text,
  kept "scope" .text,
  kept "team_name" (.option .text),
  kept "team_id" (.option .text),
  kept "user_id" (.option .text)]

def objects : List Schema := [attachmentField, attachment, message, channelTopic, channel,
  userProfile, user, dialogElement, dialog, authTestResponse, channelsHistoryResponse,
  oauthAccessResponse]

/-- The object of a name. -/
def object? (name : String) : Option Schema :=
  objects.find? fun s =>
    match s with
    | .record n _ => n == name
    | _ => false

/-- An attachment with a text and nothing else. -/
def textAttachment (text : String) : attachment.Value :=
  ("", "", "", "", "", text, ([] : List attachmentField.Value), "", (none : Option Int64), ())

end Bindery.Slack
