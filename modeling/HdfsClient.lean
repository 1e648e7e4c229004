import HdfsClient.Lib.Crc
import HdfsClient.Lib.Endian
import HdfsClient.Common.Crc32c
import HdfsClient.Common.LruMap
import HdfsClient.Network.BufferedSocketReader
import HdfsClient.Lib.Machine
import HdfsClient.Client.LeaseRenewer
import HdfsClient.Client.Pipeline
import HdfsClient.Lib.Paging
import HdfsClient.Client.Listing
import HdfsClient.Rpc.RpcChannel
import HdfsClient.Rpc.RpcClient
import HdfsClient.Lib.Chunks
import HdfsClient.Client.OutputStream
import HdfsClient.Client.OutputStreamRoom
import HdfsClient.Client.OutputStreamData
import HdfsClient.Lib.Intervals
import HdfsClient.Client.InputStream
import HdfsClient.Client.InputStreamCursor
import HdfsClient.Common.Exception
import HdfsClient.Client.InputStreamRetry
import HdfsClient.Client.PipelineRecovery
import HdfsClient.Client.PipelineSetup
import HdfsClient.Common.WritableUtils
import HdfsClient.Lib.Base64
import HdfsClient.Client.Token
import HdfsClient.Client.Packet
import HdfsClient.Server.NamenodeProxy
import HdfsClient.Client.LocalBlockReader
import HdfsClient.Client.RemoteBlockReader
import HdfsClient.Client.RemoteBlockReaderRun
import HdfsClient.Client.FileSystemPath
import HdfsClient.Client.KerberosName
import HdfsClient.Common.WriteBuffer
import HdfsClient.Rpc.RpcRemoteCall
import HdfsClient.Lib.Strtol
import HdfsClient.Common.XmlConfig
import HdfsClient.Common.SessionConfig
import HdfsClient.Lib.Retry
import HdfsClient.Client.BlockInfo
import HdfsClient.Rpc.RpcInvoke
import HdfsClient.Client.PeerCache
