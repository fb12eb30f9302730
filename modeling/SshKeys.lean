import SshKeys.PageantReply
import SshKeys.Server
import SshKeys.Processes
import SshKeys.Dialog
import SshKeys.Reload
import SshKeys.Secrecy
import SshKeys.Listener
import SshKeys.KeyFormat
import SshKeys.AuthorizedKeys
import SshKeys.CopyIdArgs
import SshKeys.MappingOwner
import SshKeys.Order
import SshKeys.Confirmation
import SshKeys.Clicks
import SshKeys.Pipe
import SshKeys.Describe
import SshKeys.Prompt
import SshKeys.Interrupted
import SshKeys.DialogPointer
import SshKeys.Restart
import SshKeys.Instances
